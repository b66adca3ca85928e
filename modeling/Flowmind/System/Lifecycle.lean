import Flowmind.System.Effects

/-!
# The life of an execution

The status of an execution is written in many places: by the worker that runs it, by the reconcilers
and by the API.  `canTransitionExecution` is the declared table of its transitions, which none of
these places consults; most of them make their write depend on the status they find, some do not.

* `Event.writesStatus` — which statuses an event may write over which.
* `acquireFirst` — a job does nothing before it has the lease, so what it works on is not pending.
* `Timely` — the writes that look at nothing find the execution active, or not enqueued where they
  retry its dispatch, and a run that completes finds it running.
* `status_transitions_declared` — a change of a status is declared just if the step is timely, and
  timely steps leave an execution that has ended as it ended.
-/

namespace Flowmind

open Program

/-! ## The table -/

/-- `VALID_TRANSITIONS`. -/
def validTransitions : ExecutionStatus → List ExecutionStatus
  | .pending => [.queued, .running, .failed, .cancelled]
  | .queued => [.running, .retrying, .failed, .cancelled]
  | .running => [.retrying, .completed, .failed, .cancelled, .queued]
  | .retrying => [.queued, .running, .failed, .cancelled]
  | .completed => []
  | .failed => []
  | .cancelled => []

def canTransitionExecution (before after : ExecutionStatus) : Bool :=
  decide (after ∈ validTransitions before)

/-- Nothing is declared for an execution that has ended. -/
lemma isActive_of_canTransition {before after : ExecutionStatus}
    (h : canTransitionExecution before after = true) : before.isActive = true := by
  cases before <;> first | rfl | (cases after <;> cases h)

/-- An active execution may be queued, be run, fail or be cancelled. -/
lemma canTransition_of_active {before after : ExecutionStatus} (hactive : before.isActive = true)
    (hchange : after ≠ before) (hretrying : after ≠ .retrying) (hcompleted : after ≠ .completed)
    (hpending : after ≠ .pending) : canTransitionExecution before after = true := by
  cases before <;> cases after <;> first | rfl | contradiction

/-! ## The writes -/

/-- The event may give the status `after` to the execution. -/
def Event.writesStatus (row : ExecutionRow) (after : ExecutionStatus) : Event → Prop
  | .statement _ .acquire _ => row.status.isActive = true ∧ after = .running
  | .statement job (.markWaiting _) _ =>
    row.id = job.executionId ∧ row.status.isActive = true ∧ after = .retrying
  | .statement job (.transitionTerminal failure _) _ =>
    row.id = job.executionId ∧ row.status.isActive = true ∧
      after = if failure.isSome then .failed else .completed
  | .statement _ (.cancelChild ..) _ => row.status.isActive = true ∧ after = .cancelled
  | .passStatement _ (.recoverExecution ..) _ => row.status = .running ∧ after = .queued
  | .passStatement _ (.expireApproval ..) _ | .passStatement _ (.resumeApproved _) _
  | .api (.decideApproval ..) => row.status = .retrying ∧ after = .queued
  | .passStatement _ (.requeue _) _ =>
    (row.status = .retrying ∨ row.status = .queued) ∧ after = .queued
  | .api (.dispatched e) | .api (.dispatchRetried e) | .api (.dispatchDeferred e) =>
    row.id = e ∧ after = .queued
  | .api (.skipWait step _) => row.id = step.id.executionId ∧ after = .queued
  | .api (.dispatchFailed _) =>
    (row.status = .pending ∨ row.status = .queued) ∧ after = .failed
  | .api (.cancel ..) | .api (.cancelDescendants ..) =>
    row.status.isActive = true ∧ after = .cancelled
  | .api (.cancelTestRun e) => row.id = e ∧ after = .cancelled
  | _ => False

variable {p : Platform} {w w' : World} {event : Event} {row row' : ExecutionRow}

section Writes

variable {now : ℕ}

/-- A status and its error change only by one of these writes. -/
lemma RowUpdate.Maybe.written_cases (h : (event.onExecution p w now).Maybe row row') :
    row'.status = row.status ∧ row'.errorJson = row.errorJson ∨
      event.writesStatus row row'.status := by
  rcases h with rfl | ⟨happlies, rfl⟩
  · exact .inl ⟨rfl, rfl⟩
  cases event with
  | statement job statement answer =>
    cases statement with
    | acquire =>
      simp only [Event.onExecution, Statement.onExecution, Lease.acquirable, Bool.and_eq_true]
        at happlies
      exact .inr ⟨happlies.1.2, rfl⟩
    | markWaiting waitReason =>
      simp only [Event.onExecution, Statement.onExecution, activeRow, Bool.and_eq_true,
        decide_eq_true_eq] at happlies
      exact .inr ⟨happlies.1, happlies.2, rfl⟩
    | cancelChild id completedAt =>
      simp only [Event.onExecution, Statement.onExecution, activeRow, Bool.and_eq_true] at happlies
      exact .inr ⟨happlies.2, rfl⟩
    | transitionTerminal failure completedAt =>
      simp only [Event.onExecution, Statement.onExecution, Bool.and_eq_true, decide_eq_true_eq]
        at happlies
      exact .inr ⟨happlies.1.1, happlies.2, rfl⟩
    | release | markStarted | writeOutput => exact .inl ⟨rfl, rfl⟩
    | _ => cases happlies
  | passStatement worker statement answer =>
    cases statement with
    | recoverExecution executionId t =>
      simp only [Event.onExecution, RecoveryStatement.onExecution, expiredRunning,
        Bool.and_eq_true, decide_eq_true_eq] at happlies
      exact .inr ⟨happlies.2.1, rfl⟩
    | expireApproval | resumeApproved =>
      simp only [Event.onExecution, RecoveryStatement.onExecution, approvalResumed,
        Bool.and_eq_true, decide_eq_true_eq] at happlies
      exact .inr ⟨happlies.1.2, rfl⟩
    | requeue executionId =>
      simp only [Event.onExecution, RecoveryStatement.onExecution, Bool.and_eq_true,
        Bool.or_eq_true, decide_eq_true_eq] at happlies
      exact .inr ⟨happlies.2, rfl⟩
    | _ => cases happlies
  | api write =>
    cases write with
    | dispatched | dispatchRetried | dispatchDeferred | skipWait | cancelTestRun =>
      exact .inr ⟨of_decide_eq_true happlies, rfl⟩
    | dispatchFailed executionId =>
      simp only [Event.onExecution, ApiWrite.onExecution, Bool.and_eq_true, Bool.or_eq_true,
        decide_eq_true_eq] at happlies
      exact .inr ⟨happlies.2, rfl⟩
    | cancel | cancelDescendants =>
      simp only [Event.onExecution, ApiWrite.onExecution, Bool.and_eq_true] at happlies
      exact .inr ⟨happlies.2, rfl⟩
    | decideApproval stepExecutionId approved =>
      cases happroval : w.db.approvals.get? stepExecutionId with
      | none =>
        simp only [Event.onExecution, ApiWrite.onExecution, happroval] at happlies
        cases happlies
      | some approval =>
        simp only [Event.onExecution, ApiWrite.onExecution, happroval, approvalResumed,
          Bool.and_eq_true, decide_eq_true_eq] at happlies ⊢
        exact .inr ⟨happlies.1.2, rfl⟩
    | _ => cases happlies
  | heartbeat => exact .inl ⟨rfl, rfl⟩
  | _ => cases happlies

lemma RowUpdate.Maybe.status_cases (h : (event.onExecution p w now).Maybe row row') :
    row'.status = row.status ∨ event.writesStatus row row'.status :=
  h.written_cases.imp_left And.left

/-- Nothing makes an execution pending. -/
lemma RowUpdate.Maybe.ne_pending (h : (event.onExecution p w now).Maybe row row')
    (hrow : row.status ≠ .pending) : row'.status ≠ .pending := by
  rcases h.status_cases with hsame | hwrites
  · rwa [hsame]
  · intro hpending
    rw [hpending] at hwrites
    unfold Event.writesStatus at hwrites
    split at hwrites <;> simp_all
    split_ifs at hwrites <;> simp_all

end Writes

/-! ## Jobs -/

/-- A job does nothing before it has the lease. -/
def acquireFirst : Protocol Statement Answer Bool where
  ok acquired statement := acquired = true ∨ statement = .acquire
  rely _ _ := True
  next acquired statement answer := match statement, answer with
    | .acquire, (granted : Bool) => acquired || granted
    | _, _ => acquired

/-- The job has the lease, or has had it. -/
def ActiveJob.acquired (active : ActiveJob) : Bool := acquireFirst.after false active.log

lemma meets_acquireFirst_run (p : Platform) (executionId : String) :
    Meets acquireFirst (fun _ _ => True) (fun _ _ => True) (run p executionId) false := by
  have hfree : ∀ {program : Eng WorkflowRunResult},
      Meets acquireFirst (fun _ _ => True) (fun _ _ => True) program true := by
    intro program
    have hall : Meets acquireFirst (fun acquired _ => acquired = true)
        (fun acquired _ => acquired = true) program true := by
      refine Meets.free (fun acquired => acquired = true) (fun _ _ h => Or.inl h) ?_ rfl
      rintro acquired statement answer rfl
      cases statement <;> rfl
    exact hall.mono (fun _ _ _ => trivial) fun _ _ _ => trivial
  refine Meets.step (.inr rfl) fun granted _ => ?_
  cases granted with
  | false => exact trivial
  | true => exact hfree

variable {events : List Event}

section Jobs

/-- What a job with the lease works on is there, and not pending. -/
def World.JobsStarted (w : World) : Prop :=
  ∀ worker active, w.jobs worker = some active → active.acquired = true →
    ∃ row, w.db.executions.get? active.job.executionId = some row ∧ row.status ≠ .pending

/-- The statement is a successful acquisition. -/
def Statement.grants : (statement : Statement) → Answer statement → Bool
  | .acquire, (granted : Bool) => granted
  | _, _ => false

lemma ActiveJob.acquired_next (active : ActiveJob) (program : Eng WorkflowRunResult)
    (statement : Statement) (answer : Answer statement) :
    (active.next program statement answer).acquired =
      (active.acquired || statement.grants answer) := by
  rw [acquired, next, Protocol.after_snoc]
  cases statement with
  | acquire => rfl
  | _ => exact (Bool.or_false _).symm

variable {job : Job} {statement : Statement} {answer : Answer statement}

/-- The row of a successful acquisition, before and after. -/
lemma exists_running_of_grants {clock : ℕ} {oracle : Oracle} {db db' : Database}
    (h : statement.perform p job clock oracle db = some (answer, db'))
    (hgrants : statement.grants answer = true) :
    ∃ row row', db.executions.get? job.executionId = some row ∧ row.status.isActive = true ∧
      db'.executions.get? job.executionId = some row' ∧ row'.status = .running := by
  cases statement with
  | acquire =>
    obtain rfl : answer = (true : Bool) := hgrants
    obtain ⟨hgranted, rfl⟩ := Prod.mk.inj (Option.some.inj h)
    obtain ⟨row, hrow, hacquirable⟩ :=
      (Lease.acquire_eq_true_iff (d := p.leaseDurationMs)).mp hgranted
    have hactive := hacquirable
    simp only [Lease.acquirable, Bool.and_eq_true] at hactive
    rw [Database.get?_updateExecutions, hrow, Option.map_some, if_pos hacquirable]
    exact ⟨row, _, rfl, hactive.1.2, rfl, rfl⟩
  | _ => cases hgrants

lemma WorldStep.jobsStarted (h : w.JobsStarted) (hstep : WorldStep p w event w') :
    w'.JobsStarted := by
  intro worker active' hactive' hacquired
  -- A row that is there and not pending stays so.
  have hkeep : ∀ {e : String}, (∃ row, w.db.executions.get? e = some row ∧ row.status ≠ .pending) →
      ∃ row, w'.db.executions.get? e = some row ∧ row.status ≠ .pending := by
    rintro e ⟨row, hrow, hpending⟩
    obtain ⟨now, -, row', hrow', hmaybe⟩ := hstep.execution_cases hrow
    exact ⟨row', hrow', hmaybe.ne_pending hpending⟩
  rcases hstep.jobs_cases hactive' with ⟨hactive, -⟩ | ⟨job, -, -, rfl, -⟩ |
    ⟨active, statement, k, answer, oracle, hactive, -, -, -, hperform, rfl⟩
  · exact hkeep (h worker active' hactive hacquired)
  · cases hacquired
  · rw [ActiveJob.acquired_next, Bool.or_eq_true] at hacquired
    rcases hacquired with hbefore | hgrants
    · exact hkeep (h worker active hactive hbefore)
    · obtain ⟨-, row, -, -, hrow, hrunning⟩ := exists_running_of_grants hperform hgrants
      exact ⟨row, hrow, by simp [hrunning]⟩

lemma WorldRun.jobsStarted (hrun : Run (WorldStep p) World.initial events w) : w.JobsStarted :=
  hrun.invariant (fun _ w => w.JobsStarted) (fun _ _ h => by cases h)
    fun _ _ _ _ _ h hstep => hstep.jobsStarted h

/-- A job that makes another statement has the lease, or has had it. -/
lemma WorldStep.acquired_of_statement (hvalid : w.Valid p)
    (hstep : WorldStep p w (.statement job statement answer) w')
    (hstatement : statement ≠ .acquire) :
    ∃ active, w.jobs job.worker = some active ∧ active.job = job ∧ active.acquired = true := by
  obtain ⟨active, k, oracle, hactive, rfl, hprogram, -⟩ := hstep.of_statement
  have hmeets := (hvalid.jobs hactive).meets (meets_acquireFirst_run p _) fun _ => trivial
  rw [hprogram] at hmeets
  exact ⟨active, hactive, rfl, hmeets.1.resolve_right hstatement⟩

section

variable (hrun : Run (WorldStep p) World.initial events w)
  (hstep : WorldStep p w (.statement job statement answer) w') (hstatement : statement ≠ .acquire)
include hrun hstep hstatement

/-- A statement of a job that is not the acquisition comes after it. -/
lemma WorldRun.exists_of_statement :
    ∃ row, w.db.executions.get? job.executionId = some row ∧ row.status ≠ .pending := by
  obtain ⟨active, hactive, rfl, hacquired⟩ :=
    hstep.acquired_of_statement (WorldRun.valid hrun) hstatement
  exact WorldRun.jobsStarted hrun _ _ hactive hacquired

lemma WorldRun.statement_ne_pending (hrow : w.db.executions.get? job.executionId = some row) :
    row.status ≠ .pending := by
  obtain ⟨row', hrow', hpending⟩ := WorldRun.exists_of_statement hrun hstep hstatement
  cases hrow.symm.trans hrow'
  exact hpending

end

end Jobs

/-! ## Timely steps -/

/-- The execution has failed because it could not be enqueued, and not in a worker. -/
def ExecutionRow.failedToEnqueue (row : ExecutionRow) : Bool :=
  decide (row.status = .failed ∧ row.errorJson = some "Failed to enqueue execution")

/-- The event enqueues an execution again that failed because it could not be enqueued. -/
def Event.reopens (row : ExecutionRow) : Event → Bool
  | .api (.dispatchRetried _) => row.failedToEnqueue
  | _ => false

/-- The change of the execution is declared, or it is opened again. -/
def Event.declares (event : Event) (row row' : ExecutionRow) : Bool :=
  canTransitionExecution row.status row'.status || event.reopens row

/-- The execution is not over. -/
def World.activeAt (w : World) (executionId : String) : Prop :=
  ∀ row, w.db.executions.get? executionId = some row → row.status.isActive = true

/-- A write that looks at nothing comes while the execution is active, or could not be enqueued and
is retried, and a run completes an execution that is running. -/
def Timely (w : World) : Event → Prop
  | .api (.dispatched e) | .api (.dispatchDeferred e) | .api (.cancelTestRun e) => w.activeAt e
  | .api (.dispatchRetried e) => ∀ row, w.db.executions.get? e = some row →
      row.status.isActive = true ∨ row.failedToEnqueue = true
  | .api (.skipWait row _) => w.activeAt row.id.executionId
  | .statement job (.transitionTerminal none _) _ =>
    ∀ row, w.db.executions.get? job.executionId = some row → row.status.isActive = true →
      row.status = .running
  | _ => True

/-- A timely step. -/
def TimelyStep (p : Platform) (w : World) (event : Event) (w' : World) : Prop :=
  WorldStep p w event w' ∧ Timely w event

section Timely

variable {e : String} {after : ExecutionStatus}

/-- A timely write finds the execution active, or opens it again. -/
lemma Timely.isActive (htimely : Timely w event) (hrow : w.db.executions.get? e = some row)
    (hwrites : event.writesStatus row after) :
    row.status.isActive = true ∨ event.reopens row = true := by
  have hid : row.id = e := Database.id_of_get? hrow
  cases event with
  | statement job statement answer =>
    cases statement with
    | acquire | cancelChild => exact .inl hwrites.1
    | markWaiting | transitionTerminal => exact .inl hwrites.2.1
    | _ => cases hwrites
  | passStatement worker statement answer =>
    cases statement with
    | recoverExecution | expireApproval | resumeApproved => rw [hwrites.1]; exact .inl rfl
    | requeue => rcases hwrites.1 with h | h <;> rw [h] <;> exact .inl rfl
    | _ => cases hwrites
  | api write =>
    cases write with
    | dispatched | dispatchDeferred | skipWait | cancelTestRun =>
      exact .inl (htimely row (by rw [← hwrites.1, hid]; exact hrow))
    | dispatchRetried => exact htimely row (by rw [← hwrites.1, hid]; exact hrow)
    | dispatchFailed => rcases hwrites.1 with h | h <;> rw [h] <;> exact .inl rfl
    | cancel | cancelDescendants => exact .inl hwrites.1
    | decideApproval => rw [hwrites.1]; exact .inl rfl
    | _ => cases hwrites
  | _ => cases hwrites

/-- Only a suspension of a job makes an execution wait. -/
lemma Event.writesStatus.retrying (hwrites : event.writesStatus row .retrying) :
    ∃ job waitReason answer, event = .statement job (.markWaiting waitReason) answer ∧
      row.id = job.executionId := by
  unfold Event.writesStatus at hwrites
  split at hwrites
  case h_2 job waitReason answer => exact ⟨job, waitReason, answer, rfl, hwrites.1⟩
  case h_3 => split_ifs at hwrites <;> simp at hwrites
  all_goals simp at hwrites

/-- Only the end of a job completes an execution. -/
lemma Event.writesStatus.completed (hwrites : event.writesStatus row .completed) :
    ∃ job completedAt answer, event = .statement job (.transitionTerminal none completedAt) answer ∧
      row.id = job.executionId := by
  unfold Event.writesStatus at hwrites
  split at hwrites
  case h_3 job failure completedAt answer =>
    cases failure with
    | none => exact ⟨job, completedAt, answer, rfl, hwrites.1⟩
    | some failure => simp at hwrites
  all_goals simp at hwrites

/-- A change of the status is declared if the step is timely. -/
lemma WorldRun.declares_of_timely (hrun : Run (WorldStep p) World.initial events w)
    (hstep : WorldStep p w event w') (htimely : Timely w event)
    (hrow : w.db.executions.get? e = some row) (hrow' : w'.db.executions.get? e = some row')
    (hchange : row'.status ≠ row.status) : event.declares row row' = true := by
  obtain ⟨now, -, row₁, hrow₁, hmaybe⟩ := hstep.execution_cases hrow
  obtain rfl : row₁ = row' := Option.some.inj (hrow₁.symm.trans hrow')
  have hid : row.id = e := Database.id_of_get? hrow
  have hwrites := hmaybe.status_cases.resolve_left hchange
  rw [Event.declares, Bool.or_eq_true]
  rcases htimely.isActive hrow hwrites with hactive | hreopens
  swap
  · exact .inr hreopens
  left
  by_cases hretrying : row₁.status = .retrying
  · rw [hretrying] at hwrites hchange ⊢
    obtain ⟨job, waitReason, answer, rfl, hjob⟩ := hwrites.retrying
    have hpending := WorldRun.statement_ne_pending hrun hstep (by simp) (by rwa [← hjob, hid])
    cases hstatus : row.status <;> simp_all [canTransitionExecution, validTransitions,
      ExecutionStatus.isActive]
  by_cases hcompleted : row₁.status = .completed
  · rw [hcompleted] at hwrites ⊢
    obtain ⟨job, completedAt, answer, rfl, hjob⟩ := hwrites.completed
    rw [htimely row (by rwa [← hjob, hid]) hactive]
    rfl
  refine canTransition_of_active hactive hchange hretrying hcompleted fun hpending => ?_
  by_cases hbefore : row.status = .pending
  · exact hchange (hpending.trans hbefore.symm)
  · exact hmaybe.ne_pending hbefore hpending

/-- A step that makes a declared change is timely. -/
lemma WorldStep.timely_of_declares (hstep : WorldStep p w event w')
    (hrow : w.db.executions.get? e = some row) (hrow' : w'.db.executions.get? e = some row')
    (hchange : row'.status ≠ row.status) (hdeclares : event.declares row row' = true) :
    Timely w event := by
  obtain ⟨now, -, row₁, hrow₁, hmaybe⟩ := hstep.execution_cases hrow
  obtain rfl : row₁ = row' := Option.some.inj (hrow₁.symm.trans hrow')
  have hid : row.id = e := Database.id_of_get? hrow
  have hwrites := hmaybe.status_cases.resolve_left hchange
  -- The write is to the row of its execution alone.
  have hsame : ∀ {e' : String} {found : ExecutionRow}, row.id = e' →
      w.db.executions.get? e' = some found → found = row := by
    intro e' found he' hfound
    rw [← he', hid, hrow] at hfound
    exact (Option.some.inj hfound).symm
  rw [Event.declares, Bool.or_eq_true] at hdeclares
  -- An event that opens nothing again has to be declared.
  have hactive (hreopens : event.reopens row = false) {e' : String} (he' : row.id = e') :
      w.activeAt e' := by
    intro found hfound
    rw [hsame he' hfound]
    exact isActive_of_canTransition (hdeclares.resolve_right (by simp [hreopens]))
  unfold Timely
  split
  · exact hactive rfl hwrites.1
  · exact hactive rfl hwrites.1
  · exact hactive rfl hwrites.1
  · intro found hfound
    rw [hsame hwrites.1 hfound]
    exact hdeclares.imp_left isActive_of_canTransition
  · exact hactive rfl hwrites.1
  · intro found hfound _
    obtain rfl := hsame hwrites.1 hfound
    have hdeclared := hdeclares.resolve_right (by simp [Event.reopens])
    rw [hwrites.2.2] at hdeclared
    cases hstatus : found.status <;> simp_all [canTransitionExecution, validTransitions]
  · trivial

/-- An execution that has ended is as it was after a timely step, other than a retry of its dispatch
where that has failed. -/
lemma TimelyStep.ended (hstep : TimelyStep p w event w') (hrow : w.db.executions.get? e = some row)
    (hended : row.status.isActive = false)
    (hretried : row.failedToEnqueue = true → event ≠ .api (.dispatchRetried e)) :
    ∃ row', w'.db.executions.get? e = some row' ∧ row'.status = row.status ∧
      row'.errorJson = row.errorJson := by
  obtain ⟨now, -, row', hrow', hmaybe⟩ := hstep.1.execution_cases hrow
  refine ⟨row', hrow', hmaybe.written_cases.resolve_right fun hwrites => ?_⟩
  rcases hstep.2.isActive hrow hwrites with hactive | hreopens
  · rw [hactive] at hended
    cases hended
  · unfold Event.reopens at hreopens
    split at hreopens
    · refine hretried hreopens ?_
      rw [← hwrites.1, Database.id_of_get? hrow]
    · cases hreopens

/-- In every state that is reached, a step makes a declared change of a status or opens an execution
again just if it is timely; and in runs of timely steps an execution that has ended stays as it
ended, unless it could not be enqueued and its dispatch is retried. -/
theorem status_transitions_declared (hrun : Run (WorldStep p) World.initial events w) :
    (∀ event w' e row row', WorldStep p w event w' → w.db.executions.get? e = some row →
      w'.db.executions.get? e = some row' → row'.status ≠ row.status →
        (event.declares row row' = true ↔ Timely w event)) ∧
    ∀ events' w' e row, Run (TimelyStep p) w events' w' → w.db.executions.get? e = some row →
      row.status.isActive = false →
      (row.failedToEnqueue = true → .api (.dispatchRetried e) ∉ events') →
        ∃ row', w'.db.executions.get? e = some row' ∧ row'.status = row.status := by
  refine ⟨fun event w' e row row' hstep hrow hrow' hchange =>
    ⟨hstep.timely_of_declares hrow hrow' hchange, fun htimely =>
      WorldRun.declares_of_timely hrun hstep htimely hrow hrow' hchange⟩, ?_⟩
  intro events' w' e row hrun' hrow hended hretried
  suffices hkept : ∃ row', w'.db.executions.get? e = some row' ∧ row'.status = row.status ∧
      row'.errorJson = row.errorJson by
    obtain ⟨row', hrow', hstatus, -⟩ := hkept
    exact ⟨row', hrow', hstatus⟩
  induction hrun' with
  | nil => exact ⟨row, hrow, rfl, rfl⟩
  | @snoc events' w₁ w' event hrun₁ hstep ih =>
    rw [List.mem_append, List.mem_singleton, not_or] at hretried
    obtain ⟨row₁, hrow₁, hstatus, herror⟩ := ih fun hfailed => (hretried hfailed).1
    rw [ExecutionRow.failedToEnqueue, ← hstatus, ← herror] at hretried
    rw [← hstatus] at hended
    obtain ⟨row', hrow', hstatus', herror'⟩ := hstep.ended hrow₁ hended fun hfailed heq =>
      (hretried hfailed).2 heq.symm
    exact ⟨row', hrow', hstatus'.trans hstatus, herror'.trans herror⟩

end Timely

/-! ## Scripts -/

/-- The status of an execution. -/
def executionStatus (w : World) (executionId : String) : Option ExecutionStatus :=
  (w.db.executions.get? executionId).map (·.status)

/-- An execution is created for a webhook. -/
def webhookReceived : List Action :=
  [.api (.create (newExecution "run" "org" "workflow" "version" .queued 0) true)]

/-- The event looks at the status of an execution, or writes none. -/
def Event.looks : Event → Bool
  | .start _ | .statement _ .acquire _ | .api (.dispatchFailed _) | .api (.cancel ..) => true
  | _ => false

lemma TimelyStep.of_looks (hstep : WorldStep p w event w') (hlooks : event.looks = true) :
    TimelyStep p w event w' := by
  refine ⟨hstep, ?_⟩
  unfold Timely
  split <;> trivial

/-- A worker does not get the lease. -/
def Event.isRefusal : Event → Bool
  | .statement _ .acquire (granted : Bool) => !granted
  | _ => false

/-- An execution is cancelled, which is declared.  After that a worker tries to run it, the webhook
tries to let it fail, and it is cancelled again; it stays as it is. -/
theorem cancelled_stays_cancelled :
    ∃ events w event w' row row' later w'' row'',
      Run (WorldStep (trialPlatform (singleStep .transform))) World.initial events w ∧
      WorldStep (trialPlatform (singleStep .transform)) w event w' ∧
      w.db.executions.get? "run" = some row ∧ row.status = .pending ∧
      w'.db.executions.get? "run" = some row' ∧ row'.status = .cancelled ∧
      (event.declares row row' = true ↔ Timely w event) ∧
      Run (TimelyStep (trialPlatform (singleStep .transform))) w' later w'' ∧
      later.length = 4 ∧ later.any Event.isRefusal = true ∧
      w''.db.executions.get? "run" = some row'' ∧ row''.status = .cancelled := by
  have hscript : (script (World.act (trialPlatform (singleStep .transform))) World.initial
      webhookReceived).any (fun created =>
        (∃ row ∈ created.2.db.executions.get? "run", row.status = .pending) ∧
        (created.2.act (trialPlatform (singleStep .transform)) (.api (.cancel "run" "org"))).any
          fun done => (∃ row ∈ done.2.db.executions.get? "run", row.status = .cancelled) ∧
            (script (World.act (trialPlatform (singleStep .transform))) done.2
              [.start (trialJob "a"), .statement "a" {}, .api (.dispatchFailed "run"),
                .api (.cancel "run" "org")]).any fun last =>
                  last.1.all Event.looks ∧ last.1.length = 4 ∧ last.1.any Event.isRefusal) := by
    decide +kernel
  obtain ⟨events, w, hrun, ⟨row, hrow, hpending⟩, hthen⟩ := World.exists_run hscript
  obtain ⟨event, w', hstep, ⟨row', hrow', hcancelled⟩, hthen⟩ := World.exists_step hthen
  obtain ⟨later, w'', hlater, hlooks, hlength, hrefusal⟩ := World.exists_run hthen
  have htimely := hlater.mono_of_all (fun _ _ _ hstep => TimelyStep.of_looks hstep) hlooks
  obtain ⟨row'', hrow'', hstatus⟩ := (status_transitions_declared (hrun.snoc hstep)).2 later w'' "run"
    row' htimely hrow' (by rw [hcancelled]; rfl) (by simp [ExecutionRow.failedToEnqueue, hcancelled])
  refine ⟨events, w, event, w', row, row', later, w'', row'', hrun, hstep, hrow, hpending, hrow',
    hcancelled, (status_transitions_declared hrun).1 event w' "run" row row' hstep hrow hrow' ?_,
    htimely, hlength, hrefusal, hrow'', hstatus.trans hcancelled⟩
  rw [hpending, hcancelled]
  simp

/-- A webhook whose execution could not be enqueued is sent again, and the execution that has failed
is queued.  And the worker is done with an execution before the webhook writes that it is queued. -/
theorem ended_executions_queued :
    (∃ events w w',
      Run (WorldStep (trialPlatform (singleStep .transform))) World.initial events w ∧
      WorldStep (trialPlatform (singleStep .transform)) w (.api (.dispatchRetried "run")) w' ∧
      executionStatus w "run" = some .failed ∧ executionStatus w' "run" = some .queued) ∧
    ∃ events w w',
      Run (WorldStep (trialPlatform (singleStep .transform))) World.initial events w ∧
      WorldStep (trialPlatform (singleStep .transform)) w (.api (.dispatched "run")) w' ∧
      executionStatus w "run" = some .completed ∧ executionStatus w' "run" = some .queued := by
  -- Both are a script and one more write.
  have hwrites : ∀ {actions : List Action} {write : ApiWrite} {before : ExecutionStatus},
      (script (World.act (trialPlatform (singleStep .transform))) World.initial actions).any
        (fun done => executionStatus done.2 "run" = some before ∧
          (write.perform (trialPlatform (singleStep .transform)) done.2.clock done.2.db).any
            fun db => executionStatus { done.2 with db := db } "run" = some .queued) →
      ∃ events w w',
        Run (WorldStep (trialPlatform (singleStep .transform))) World.initial events w ∧
        WorldStep (trialPlatform (singleStep .transform)) w (.api write) w' ∧
        executionStatus w "run" = some before ∧ executionStatus w' "run" = some .queued := by
    intro actions write before hscript
    obtain ⟨events, w, hrun, hbefore, hthen⟩ := World.exists_run hscript
    obtain ⟨db, hperform, hafter⟩ := (Option.any_eq_true _ _).mp hthen
    exact ⟨events, w, _, hrun, .api hperform, hbefore, of_decide_eq_true hafter⟩
  constructor
  · exact @hwrites (webhookReceived ++ [.api (.dispatchFailed "run")]) _ _ (by decide +kernel)
  · exact @hwrites (webhookReceived ++ [.start (trialJob "a")] ++ statements "a" 27) _ _
      (by decide +kernel)

end Flowmind
