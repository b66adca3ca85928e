import Flowmind.System.Lifecycle
import Flowmind.TestRuns.TestWorld

/-!
# The outcome of an execution

The end of an execution is announced by an internal event, in the transaction that ends it: by the
worker, or by the webhook that cannot enqueue it.  Some writes set the status of an execution
without a look at it, and may come after that.

* `outcomes` — the outcomes that were announced for an execution.
* `Considerate` — a write that looks at nothing meets no execution whose outcome was announced.
* `one_outcome` — in runs of considerate steps at most one outcome is announced, and the execution
  has this status; any other step leads to a state where this is not so.
-/

namespace Flowmind.TestRuns

open Program Store
open InternalEvents (EventType)

/-! ## Outcomes -/

/-- The status that an event announces. -/
def outcome? : EventType → Option ExecutionStatus
  | .executionCompleted => some .completed
  | .executionFailed => some .failed
  | _ => none

/-- The outcome of an execution that an event announces. -/
def InternalEvent.outcomeOf (executionId : String) (internal : InternalEvent) :
    Option ExecutionStatus :=
  if internal.executionId = executionId then outcome? internal.type else none

/-- The outcomes of an execution that were announced. -/
def outcomes (internalEvents : List InternalEvent) (executionId : String) : List ExecutionStatus :=
  internalEvents.filterMap (InternalEvent.outcomeOf executionId)

/-- At most one outcome was announced, and the execution has this status. -/
def TestWorld.Agrees (t : TestWorld) (executionId : String) : Prop :=
  outcomes t.internalEvents executionId = [] ∨
    ∃ row, t.world.db.executions.get? executionId = some row ∧
      outcomes t.internalEvents executionId = [row.status]

/-- The execution whose status an event writes without a look at it. -/
def overwrites : Event → Option String
  | .api (.dispatched e) | .api (.dispatchRetried e) | .api (.dispatchDeferred e)
  | .api (.cancelTestRun e) => some e
  | .api (.skipWait row _) => some row.id.executionId
  | _ => none

/-- Such a write meets no execution whose outcome was announced. -/
def Considerate (t : TestWorld) (event : TestEvent) : Prop :=
  ∀ e, overwrites event.onWorld = some e → outcomes t.internalEvents e = []

/-- A considerate step. -/
def ConsiderateStep (p : Platform) (t : TestWorld) (event : TestEvent) (t' : TestWorld) : Prop :=
  TestStep p t event t' ∧ Considerate t event

section Step

variable {p : Platform} {w w' : World} {t t' : TestWorld} {event : Event} {testEvent : TestEvent}
  {change : Option RecordChange} {e : String} {row row' : ExecutionRow}

lemma outcomes_append (internalEvents internalEvents' : List InternalEvent) (executionId : String) :
    outcomes (internalEvents ++ internalEvents') executionId =
      outcomes internalEvents executionId ++ outcomes internalEvents' executionId :=
  List.filterMap_append

/-- What a step adds to the internal events. -/
lemma TestStep.internalEvents_eq (h : TestStep p t testEvent t') :
    ∃ change, t'.internalEvents =
      t.internalEvents ++ emitted t.world change testEvent.onWorld := by
  cases h with
  | world change => exact ⟨change, rfl⟩
  | createTestRun | materialize => exact ⟨none, (List.append_nil _).symm⟩

/-- The end of an execution: a transition that changes a row finds it active. -/
lemma exists_of_transition {job : Job} {failure : Option String} {completedAt changed : ℕ}
    (hstep : WorldStep p w (.statement job (.transitionTerminal failure completedAt) changed) w')
    (hchanged : changed = 1) :
    ∃ row row', w.db.executions.get? job.executionId = some row ∧ row.status.isActive = true ∧
      w'.db.executions.get? job.executionId = some row' ∧
      row'.status = if failure.isSome then .failed else .completed := by
  obtain ⟨active, k, oracle, -, -, -, hperform⟩ := hstep.of_statement
  obtain ⟨hcount, hdb⟩ := Prod.mk.inj (Option.some.inj hperform)
  rw [hchanged] at hcount
  obtain ⟨row, hrow, hactive⟩ := (Table.count_eq_one_iff fun row hrow => by
    simp only [Bool.and_eq_true, decide_eq_true_eq] at hrow
    exact hrow.1.1).mp hcount
  have hstatus := hactive
  simp only [Bool.and_eq_true] at hstatus
  rw [← hdb, Database.get?_updateExecutions, hrow, Option.map_some, if_pos hactive]
  exact ⟨row, _, rfl, hstatus.2, rfl, rfl⟩

lemma outcomes_toList_map {α : Type*} (found : Option α) (f : α → InternalEvent) (e : String) :
    outcomes (found.toList.map f) e = (found.bind fun a => (f a).outcomeOf e).toList := by
  cases found with
  | none => rfl
  | some a => cases h : (f a).outcomeOf e <;> simp [outcomes, h]

/-- Events of another kind announce nothing. -/
lemma outcomes_toList_map_eq_nil {α : Type*} (found : Option α) {f : α → InternalEvent}
    (hf : ∀ a, outcome? (f a).type = none) (e : String) :
    outcomes (found.toList.map f) e = [] := by
  rw [outcomes_toList_map]
  cases found with
  | none => rfl
  | some a => simp [InternalEvent.outcomeOf, hf]

lemma outcome?_recordEvent {type : StepType} {done : RecordChange} {emitted : EventType}
    (h : recordEvent type done = some emitted) : outcome? emitted = none := by
  unfold recordEvent at h
  split at h <;> cases h <;> rfl

/-- What a step announces about an execution: nothing, or how it ends an execution that is
active. -/
lemma announced_cases (hstep : WorldStep p w event w') (change : Option RecordChange)
    (e : String) :
    outcomes (emitted w change event) e = [] ∨
      ∃ row row', w.db.executions.get? e = some row ∧ row.status.isActive = true ∧
        w'.db.executions.get? e = some row' ∧
        outcomes (emitted w change event) e = [row'.status] := by
  unfold emitted
  split
  case h_1 approval =>
    split_ifs
    · exact .inl (by simp [outcomes, InternalEvent.outcomeOf, outcome?])
    · exact .inl rfl
  case h_2 stepExecutionId approved =>
    exact .inl (outcomes_toList_map_eq_nil _ (by cases approved <;> exact fun _ => rfl) e)
  case h_3 => exact .inl (outcomes_toList_map_eq_nil _ (fun _ => rfl) e)
  case h_4 job failure completedAt changed =>
    rw [outcomes_toList_map]
    generalize hfound : Option.filter _ _ = found
    cases found with
    | none => exact .inl rfl
    | some found =>
      obtain ⟨-, hcond⟩ := Option.filter_eq_some_iff.mp hfound
      simp only [Bool.and_eq_true, decide_eq_true_eq] at hcond
      obtain ⟨row, row', hrow, hactive, hrow', hstatus⟩ := exists_of_transition hstep hcond.1
      by_cases he : job.executionId = e
      · subst he
        refine .inr ⟨row, row', hrow, hactive, hrow', ?_⟩
        cases failure <;>
          simp [InternalEvent.outcomeOf, outcome?, hstatus]
      · exact .inl (by simp [InternalEvent.outcomeOf, he])
  case h_5 executionId =>
    rw [outcomes_toList_map]
    generalize hfound : Option.filter _ _ = found
    cases found with
    | none => exact .inl rfl
    | some row =>
      obtain ⟨hrow, hcond⟩ := Option.filter_eq_some_iff.mp hfound
      simp only [Bool.and_eq_true, Bool.or_eq_true, decide_eq_true_eq] at hcond
      by_cases he : executionId = e
      · subst he
        have hactive : row.status.isActive = true := by
          rcases hcond.1 with h | h <;> rw [h] <;> rfl
        cases hstep with
        | api hperform =>
          cases hperform
          refine .inr ⟨row, ApiWrite.enqueueFailed w.clock row, hrow, hactive, ?_, ?_⟩
          · refine (Database.get?_updateExecutions ..).trans ?_
            rw [hrow]
            simp [Database.id_of_get? hrow, hcond.1]
          · simp [InternalEvent.outcomeOf, outcome?, ApiWrite.enqueueFailed]
      · exact .inl (by simp [InternalEvent.outcomeOf, he])
  case h_6 job context row step attempt config answer =>
    left
    cases hdone : change.bind (recordEvent step.type) with
    | none => rfl
    | some type =>
      obtain ⟨done, -, hrecord⟩ := Option.bind_eq_some_iff.mp hdone
      simp [outcomes, InternalEvent.outcomeOf, outcome?_recordEvent hrecord]
  case h_7 => exact .inl rfl

/-! ## Writes of the status -/

/-- A write that looks at the status finds the execution active. -/
lemma isActive_of_writesStatus {after : ExecutionStatus} (hwrites : event.writesStatus row after)
    (hlooks : overwrites event ≠ some row.id) : row.status.isActive = true := by
  cases event with
  | statement job statement answer =>
    cases statement with
    | acquire | cancelChild => exact hwrites.1
    | markWaiting | transitionTerminal => exact hwrites.2.1
    | _ => cases hwrites
  | passStatement worker statement answer =>
    cases statement with
    | recoverExecution | expireApproval | resumeApproved => rw [hwrites.1]; rfl
    | requeue => rcases hwrites.1 with h | h <;> rw [h] <;> rfl
    | _ => cases hwrites
  | api write =>
    cases write with
    | dispatched | dispatchRetried | dispatchDeferred | skipWait | cancelTestRun =>
      exact absurd (congrArg some hwrites.1.symm) hlooks
    | dispatchFailed => rcases hwrites.1 with h | h <;> rw [h] <;> rfl
    | cancel | cancelDescendants => exact hwrites.1
    | decideApproval => rw [hwrites.1]; rfl
    | _ => cases hwrites
  | _ => cases hwrites

lemma get?_updateExecution {db : Database} {data : ExecutionRow → ExecutionRow}
    {hid : ∀ row, (data row).id = row.id} (hrow : db.executions.get? e = some row) :
    (db.updateExecution e data hid).executions.get? e = some (data row) := by
  rw [Database.updateExecution, Database.get?_updateExecutions, hrow, Option.map_some,
    if_pos (by simpa using Database.id_of_get? hrow)]

/-- A write that looks at nothing leaves the execution queued or cancelled. -/
lemma status_of_overwrites (hstep : WorldStep p w event w') (he : overwrites event = some e)
    (hrow : w.db.executions.get? e = some row) :
    ∃ row', w'.db.executions.get? e = some row' ∧
      (row'.status = .queued ∨ row'.status = .cancelled) := by
  unfold overwrites at he
  split at he
  case h_1 | h_2 | h_3 =>
    cases he
    cases hstep with
    | api hperform =>
      cases hperform
      exact ⟨_, get?_updateExecution hrow, .inl rfl⟩
  case h_4 =>
    cases he
    cases hstep with
    | api hperform =>
      cases hperform
      exact ⟨_, get?_updateExecution hrow, .inr rfl⟩
  case h_5 step skippedAt =>
    cases he
    cases hstep with
    | api hperform =>
      simp only [ApiWrite.perform] at hperform
      split_ifs at hperform
      cases hperform
      exact ⟨_, get?_updateExecution hrow, .inl rfl⟩
  case h_6 => cases he

/-- The outcomes announced in a step are those of executions that are active. -/
lemma outcomes_step (hstep : TestStep p t testEvent t') :
    outcomes t'.internalEvents e = outcomes t.internalEvents e ∨
      ∃ row row', t.world.db.executions.get? e = some row ∧ row.status.isActive = true ∧
        t'.world.db.executions.get? e = some row' ∧
        outcomes t'.internalEvents e = outcomes t.internalEvents e ++ [row'.status] := by
  obtain ⟨change, hevents⟩ := hstep.internalEvents_eq
  rw [hevents, outcomes_append]
  rcases announced_cases hstep.worldStep change e with hnone | hsome
  · exact .inl (by rw [hnone, List.append_nil])
  · obtain ⟨row, row', hrow, hactive, hrow', hsome⟩ := hsome
    exact .inr ⟨row, row', hrow, hactive, hrow', by rw [hsome]⟩

/-- A row after a step. -/
lemma row_step (hstep : TestStep p t testEvent t')
    (hrow : t.world.db.executions.get? e = some row) :
    ∃ row', t'.world.db.executions.get? e = some row' ∧
      (row'.status = row.status ∨ testEvent.onWorld.writesStatus row row'.status) := by
  obtain ⟨now, -, row', hrow', hmaybe⟩ := hstep.worldStep.execution_cases hrow
  exact ⟨row', hrow', hmaybe.status_cases⟩

/-- What is announced is the end of an execution. -/
lemma ended_of_mem_outcomes {internalEvents : List InternalEvent} {status : ExecutionStatus}
    (h : status ∈ outcomes internalEvents e) : status = .completed ∨ status = .failed := by
  obtain ⟨internal, -, houtcome⟩ := List.mem_filterMap.mp h
  unfold InternalEvent.outcomeOf outcome? at houtcome
  split_ifs at houtcome
  split at houtcome
  · exact .inl (Option.some.inj houtcome).symm
  · exact .inr (Option.some.inj houtcome).symm
  · cases houtcome

/-- **A considerate step** keeps an announced outcome, and announces none for an execution that has
one. -/
lemma agrees_step (h : ∀ e, t.Agrees e) (hstep : TestStep p t testEvent t')
    (hconsiderate : Considerate t testEvent) (e : String) : t'.Agrees e := by
  rcases h e with hnone | ⟨row, hrow, hsome⟩
  · rcases outcomes_step hstep (e := e) with hsame | ⟨_, row', -, -, hrow', hnew⟩
    · exact .inl (hsame.trans hnone)
    · exact .inr ⟨row', hrow', by rw [hnew, hnone, List.nil_append]⟩
  · -- The execution has ended.
    have hended : row.status.isActive = false := by
      rcases ended_of_mem_outcomes (hsome ▸ List.mem_singleton_self row.status) with h | h <;>
        rw [h] <;> rfl
    have hlooks : overwrites testEvent.onWorld ≠ some row.id := by
      rw [Database.id_of_get? hrow]
      intro he
      simp [hconsiderate e he] at hsome
    obtain ⟨row', hrow', hstatus⟩ := row_step hstep hrow
    have hsame : row'.status = row.status := by
      refine hstatus.resolve_right fun hwrites => ?_
      simp [isActive_of_writesStatus hwrites hlooks] at hended
    rcases outcomes_step hstep (e := e) with hnone | ⟨found, _, hfound, hactive, -⟩
    · exact .inr ⟨row', hrow', by rw [hnone, hsome, hsame]⟩
    · cases hrow.symm.trans hfound
      simp [hended] at hactive

/-- A step that is not considerate leaves an execution whose outcome was announced in another
status. -/
lemma not_agrees_step (h : ∀ e, t.Agrees e) (hstep : TestStep p t testEvent t')
    (hconsiderate : ¬Considerate t testEvent) : ∃ e, ¬t'.Agrees e := by
  simp only [Considerate, not_forall] at hconsiderate
  obtain ⟨e, he, hannounced⟩ := hconsiderate
  obtain ⟨row, hrow, hsome⟩ := (h e).resolve_left hannounced
  obtain ⟨row', hrow', hstatus⟩ := status_of_overwrites hstep.worldStep he hrow
  refine ⟨e, ?_⟩
  rintro (hnone | ⟨found, hfound, hagrees⟩)
  · rcases outcomes_step hstep (e := e) with hsame | ⟨_, _, -, -, -, hnew⟩
    · exact hannounced (hsame.symm.trans hnone)
    · simp [hnew] at hnone
  · cases hrow'.symm.trans hfound
    have hmem : row'.status ∈ outcomes t'.internalEvents e := by simp [hagrees]
    rcases ended_of_mem_outcomes hmem with hended | hended <;>
      rw [hended] at hstatus <;> simp at hstatus

/-- **The outcome of an execution.**  In every run of considerate steps at most one outcome of an
execution is announced, and it is the status of the execution from then on.  A step in a state that
is reached keeps this just if it is considerate. -/
theorem one_outcome {events : List TestEvent}
    (hrun : Run (ConsiderateStep p) TestWorld.initial events t) :
    (∀ e, t.Agrees e) ∧
      ∀ event t', TestStep p t event t' → ((∀ e, t'.Agrees e) ↔ Considerate t event) := by
  have hagrees : ∀ e, t.Agrees e := by
    refine hrun.invariant (fun _ t => ∀ e, t.Agrees e) (fun _ => .inl rfl) ?_
    exact fun _ _ _ _ _ h hstep => agrees_step h hstep.1 hstep.2
  refine ⟨hagrees, fun event t' hstep => ⟨fun h => ?_, agrees_step hagrees hstep⟩⟩
  by_contra hconsiderate
  obtain ⟨e, hnot⟩ := not_agrees_step hagrees hstep hconsiderate
  exact hnot (h e)

end Step

/-! ## Scripts -/

instance (t : TestWorld) : DecidablePred (Considerate t) := fun event =>
  inferInstanceAs (Decidable (∀ e ∈ overwrites event.onWorld, outcomes t.internalEvents e = []))

lemma considerateStep_of_actIf {p : Platform} {t t' : TestWorld} {action : TestAction}
    {event : TestEvent} (h : actIf (TestWorld.act p) Considerate t action = some (event, t')) :
    ConsiderateStep p t event t' := by
  obtain ⟨hact, hconsiderate⟩ := Option.filter_eq_some_iff.mp h
  exact ⟨TestWorld.act_sound hact, of_decide_eq_true hconsiderate⟩

/-- An execution is created for a webhook. -/
def webhookStarts : List TestAction :=
  webhookReceived.map (.world · none)

/-- A worker runs the execution to its end. -/
def workerRuns : List TestAction :=
  (Action.start (trialJob "a") :: statements "a" 27).map (.world · none)

/-- The execution is put into the queue and run: one outcome. -/
theorem one_outcome_completed :
    ∃ events t, Run (ConsiderateStep (trialPlatform (singleStep .transform))) TestWorld.initial
        events t ∧
      outcomes t.internalEvents "run" = [.completed] ∧ t.Agrees "run" := by
  have hscript : (script (actIf (TestWorld.act (trialPlatform (singleStep .transform))) Considerate)
      TestWorld.initial (webhookStarts ++ [.world (.api (.dispatched "run")) none] ++
        workerRuns)).any (fun done => outcomes done.2.internalEvents "run" = [.completed]) := by
    decide +kernel
  obtain ⟨events, t, hrun, hcompleted⟩ := exists_run
    (actIf (TestWorld.act (trialPlatform (singleStep .transform))) Considerate)
    (fun _ _ _ _ => considerateStep_of_actIf) hscript
  exact ⟨events, t, hrun, hcompleted, (one_outcome hrun).1 "run"⟩

/-- The webhook cannot enqueue the execution, and announces that it has failed; the same request,
sent again, enqueues it, and the worker completes it. -/
theorem two_outcomes :
    ∃ events t,
      Run (TestStep (trialPlatform (singleStep .transform))) TestWorld.initial events t ∧
      outcomes t.internalEvents "run" = [.failed, .completed] := by
  have hscript : (script (TestWorld.act (trialPlatform (singleStep .transform))) TestWorld.initial
      (webhookStarts ++ [.world (.api (.dispatchFailed "run")) none,
        .world (.api (.dispatchRetried "run")) none] ++ workerRuns)).any (fun done =>
          outcomes done.2.internalEvents "run" = [.failed, .completed]) := by
    decide +kernel
  exact TestWorld.exists_run hscript

end Flowmind.TestRuns
