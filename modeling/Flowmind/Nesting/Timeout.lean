import Flowmind.Nesting.Subworkflows

/-!
# Timeouts of subworkflows

A subworkflow step that has waited too long cancels the newest child and fails with the code
`TIMEOUT` (`startProtocol`).  It cancels the child it has read, if that is still active, and nothing
below it.

* `World.Quiet` — the child is cancelled, nothing below it is active and nobody is at work there;
  this lasts (`ServedStep.quiet`).
* `ClearStep` — whoever cancels a child finds it active and nothing else of it in the way
  (`World.Clear`).
* `timeout_honest` — then a timeout leaves the child cancelled and nothing below it active.
* `timeout_misses` — without that a step times out whose child is completed, or leaves a grandchild
  active.
-/

namespace Flowmind

open Program Store Nesting Eng

/-! ## Quiet subtrees -/

/-- An execution is cancelled that has a parent, nothing below it is active, and nobody is at work
there. -/
structure World.Quiet (w : World) (top : String) : Prop where
  cancelled : ∃ row, w.db.executions.get? top = some row ∧ row.status = .cancelled ∧
    row.parentExecutionId ≠ none
  inactive : ∀ {id row}, Descends w.db.parentOf id top → w.db.executions.get? id = some row →
    row.status.isActive = false
  idle : ∀ {worker active}, w.jobs worker = some active → active.acquired = true →
    ¬ w.db.InSubtree top active.job.executionId

variable {p : Platform} {w w' : World} {event : Event}

section Quiet

variable {top : String} {id : String}

/-- The parent of an execution that was there is the same; a new one has no parent, or its parent is
at work. -/
lemma ServedStep.parentOf_cases (hvalid : w.Valid p) (hstep : ServedStep p w event w')
    {parent : String} (h : w'.db.parentOf id = some parent) :
    w.db.parentOf id = some parent ∨
      ∃ worker active, w.jobs worker = some active ∧ active.acquired = true ∧
        active.job.executionId = parent := by
  obtain ⟨row', hrow', hparent⟩ := Option.bind_eq_some_iff.mp h
  rcases hstep.step.row_cases hrow' with ⟨row, hrow, hplace⟩ | hcreates
  · left
    rw [Database.parentOf, hrow]
    exact (congrArg Placement.parentExecutionId hplace).symm.trans hparent
  · rcases hstep.creates_cases hvalid hcreates with
      ⟨-, hnone, -⟩ | ⟨runner, stepRow, write, child, answer, hrunner, rfl, hmay, rfl⟩
    · exact absurd (hnone.symm.trans hparent) (by simp)
    · obtain ⟨active, hactive, hjob, hacquired⟩ :=
        hstep.step.acquired_of_statement hvalid (by simp)
      obtain ⟨above, -, habove, hchild⟩ := hmay.parent
      refine .inr ⟨_, active, hactive, hacquired, ?_⟩
      rw [hjob, ← habove]
      exact Option.some.inj (hchild.parentExecutionId.symm.trans hparent)

/-- Nothing is added below where nobody is at work. -/
lemma ServedStep.descends (hvalid : w.Valid p) (hstep : ServedStep p w event w') (h : w.Quiet top)
    (hdescends : Descends w'.db.parentOf id top) : Descends w.db.parentOf id top := by
  induction hdescends using Relation.TransGen.head_induction_on with
  | single hlink =>
    rcases hstep.parentOf_cases hvalid hlink with hold | ⟨worker, active, hactive, hacquired, hid⟩
    · exact .single hold
    · exact absurd (.inl hid) (h.idle hactive hacquired)
  | head hlink _ ih =>
    rcases hstep.parentOf_cases hvalid hlink with hold | ⟨worker, active, hactive, hacquired, rfl⟩
    · exact ih.head hold
    · exact absurd (.inr ih) (h.idle hactive hacquired)

/-- What descends from another execution was there, with a parent. -/
lemma Database.exists_of_parentOf {db : Database} {parent : String}
    (h : db.parentOf id = some parent) :
    ∃ row, db.executions.get? id = some row ∧ row.parentExecutionId ≠ none := by
  obtain ⟨row, hrow, hparent⟩ := Option.bind_eq_some_iff.mp h
  exact ⟨row, hrow, by simp [hparent]⟩

/-- **It stays quiet.** -/
lemma ServedStep.quiet (hvalid : w.Valid p) (hstep : ServedStep p w event w') (h : w.Quiet top) :
    w'.Quiet top := by
  obtain ⟨row, hrow, hcancelled, hparent⟩ := h.cancelled
  have hended : row.status.isActive = false := by rw [hcancelled]; rfl
  have hinactive : ∀ {id row}, w.db.InSubtree top id → w.db.executions.get? id = some row →
      row.status.isActive = false := by
    rintro id other (rfl | hdescends) hother
    · rw [← Option.some.inj (hrow.symm.trans hother), hended]
    · exact h.inactive hdescends hother
  refine ⟨?_, ?_, ?_⟩
  · obtain ⟨row', hrow', hplace⟩ := Database.exists_of_placement
      (hstep.step.placement_of_some (Database.placement_of_get? hrow))
    refine ⟨row', hrow', ?_, ?_⟩
    · rcases hstep.ended_cases hrow hrow' hparent hended with hsame | hcancelled'
      · rw [hsame, hcancelled]
      · exact hcancelled'
    · exact fun hnone => hparent ((congrArg Placement.parentExecutionId hplace).symm.trans hnone)
  · intro id other' hdescends hother'
    have hbefore := hstep.descends hvalid h hdescends
    obtain ⟨parent, hlink, -⟩ := hbefore.exists_parent
    obtain ⟨other, hother, hparentOther⟩ := Database.exists_of_parentOf hlink
    exact hstep.ended hother hother' hparentOther (h.inactive hbefore hother)
  · intro worker active' hactive' hacquired hin
    have hin₀ : w.db.InSubtree top active'.job.executionId :=
      hin.imp_right (hstep.descends hvalid h)
    rcases hstep.step.jobs_cases hactive' with ⟨hactive, -⟩ | ⟨job, -, -, rfl, -⟩ |
      ⟨active, statement, k, answer, oracle, hactive, -, -, -, hperform, rfl⟩
    · exact h.idle hactive hacquired hin₀
    · cases hacquired
    · rw [ActiveJob.acquired_next, Bool.or_eq_true] at hacquired
      rcases hacquired with hbefore | hgrants
      · exact h.idle hactive hbefore hin₀
      · obtain ⟨found, -, hfound, hactiveRow, -⟩ := exists_running_of_grants hperform hgrants
        rw [hinactive hin₀ hfound] at hactiveRow
        cases hactiveRow

end Quiet

/-! ## Timeouts -/

/-- The child that the run of a worker has cancelled last, with its step: the one a timeout names.
-/
def World.named (w : World) (worker : String) : Option (StepId × ExecutionRow) :=
  (w.jobs worker).bind fun active => active.startView.cancelled

/-- The execution is active, nothing below it is active, and nobody is at work there. -/
structure World.Clear (w : World) (top : String) : Prop where
  active : ∃ row, w.db.executions.get? top = some row ∧ row.status.isActive = true
  below : ∀ id row, Descends w.db.parentOf id top → w.db.executions.get? id = some row →
    row.status.isActive = false
  idle : ∀ worker runner, w.jobs worker = some runner → runner.acquired = true →
    ¬ w.db.InSubtree top runner.job.executionId

/-- Whoever cancels a child finds it active, nothing below it active, and nobody at work there. -/
structure ClearStep (p : Platform) (w : World) (event : Event) (w' : World) : Prop
    extends ServedStep p w event w' where
  clear : ∀ job id t answer, event = .statement job (.cancelChild id t) answer → w.Clear id

/-- What a run has read and cancelled is true. -/
structure StartView.Names (w : World) (v : StartView) : Prop where
  newest : ∀ step child, v.newest = some (step, some child) →
    w.db.placement child.id = some child.placement ∧ child.parentStepExecutionId = some step
  cancelled : ∀ step child, v.cancelled = some (step, child) →
    w.Quiet child.id ∧ child.parentStepExecutionId = some step

/-- What the runs have read and cancelled. -/
structure World.Cancelling (w : World) : Prop where
  /-- The child of a step has a parent. -/
  parented : ∀ {id row}, w.db.executions.get? id = some row → row.parentStepExecutionId ≠ none →
    row.parentExecutionId ≠ none
  names : ∀ {worker active}, w.jobs worker = some active → active.startView.Names w

lemma cancelling_initial : World.initial.Cancelling where
  parented h := by cases h
  names h := by cases h

/-- The child of a step has a parent. -/
lemma ServedStep.parented (hvalid : w.Valid p) (hstep : ServedStep p w event w') (h : w.Cancelling)
    {id : String} {row' : ExecutionRow} (hrow' : w'.db.executions.get? id = some row')
    (hchild : row'.parentStepExecutionId ≠ none) : row'.parentExecutionId ≠ none := by
  rcases hstep.step.row_cases hrow' with ⟨row, hrow, hplace⟩ | hcreates
  · have hparent : row'.parentExecutionId = row.parentExecutionId :=
      congrArg Placement.parentExecutionId hplace
    have hparentStep : row'.parentStepExecutionId = row.parentStepExecutionId :=
      congrArg Placement.parentStepExecutionId hplace
    rw [hparent]
    exact h.parented hrow (hparentStep ▸ hchild)
  · rcases hstep.creates_cases hvalid hcreates with
      ⟨-, -, hnone, -⟩ | ⟨runner, stepRow, write, child, answer, -, -, hmay, rfl⟩
    · exact absurd hnone hchild
    · obtain ⟨above, -, -, hchild⟩ := hmay.parent
      simp [hchild.parentExecutionId]

/-- A child that is cancelled in a clear step has a quiet subtree. -/
lemma ClearStep.quiet_of_cancelChild (hstep : ClearStep p w event w') (h : w.Cancelling) {job : Job}
    {child : ExecutionRow} {t : ℕ} {answer : Unit}
    (hevent : event = .statement job (.cancelChild child.id t) answer) {step : StepId}
    (hplace : w.db.placement child.id = some child.placement)
    (hchild : child.parentStepExecutionId = some step) : w'.Quiet child.id := by
  subst hevent
  have hclear := hstep.clear job _ t answer rfl
  obtain ⟨row, hrow, hactive⟩ := hclear.active
  obtain ⟨active, k, oracle, hjob, rfl, -, hperform⟩ := hstep.step.of_statement
  obtain ⟨-, hdb⟩ := Prod.mk.inj (Option.some.inj hperform)
  have hget : ∀ id, w'.db.executions.get? id = (w.db.executions.get? id).map fun row =>
      if activeRow child.id row then
        { row with
          status := .cancelled, completedAt := some t, lockedBy := none, lockedUntil := none }
      else row := by
    intro id
    rw [← hdb]
    exact Database.get?_updateExecutions
  have hparents : w'.db.parentOf = w.db.parentOf := by
    funext id
    rw [Database.parentOf, Database.parentOf, hget]
    cases w.db.executions.get? id with
    | none => rfl
    | some row =>
      rw [Option.map_some]
      split <;> rfl
  have hrowPlace : row.placement = child.placement :=
    Option.some.inj ((Database.placement_of_get? hrow).symm.trans hplace)
  have hparent : row.parentExecutionId ≠ none := by
    refine h.parented hrow ?_
    have hparentStep : row.parentStepExecutionId = child.parentStepExecutionId :=
      congrArg Placement.parentStepExecutionId hrowPlace
    simp [hparentStep, hchild]
  refine ⟨?_, ?_, ?_⟩
  · rw [hget, hrow, Option.map_some, if_pos (by simp [activeRow, Database.id_of_get? hrow, hactive])]
    exact ⟨_, rfl, rfl, hparent⟩
  · intro id other' hdescends hother'
    rw [hparents] at hdescends
    rw [hget, Option.map_eq_some_iff] at hother'
    obtain ⟨other, hother, rfl⟩ := hother'
    split
    · rfl
    · exact hclear.below id other hdescends hother
  · intro worker runner' hrunner' hacquired
    rw [Database.InSubtree, hparents]
    rcases hstep.step.jobs_cases hrunner' with ⟨hrunner, -⟩ | ⟨job, -, -, rfl, -⟩ |
      ⟨runner, statement, k, answer, oracle, hrunner, -, hevent, -, -, rfl⟩
    · exact hclear.idle worker runner' hrunner hacquired
    · cases hacquired
    · obtain ⟨-, rfl, -⟩ := Event.statement.inj hevent
      rw [ActiveJob.acquired_next, Bool.or_eq_true] at hacquired
      rcases hacquired with hacquired | hgrants
      · exact hclear.idle worker runner hrunner hacquired
      · cases hgrants

/-- What a run has read and cancelled is true after a step as well. -/
lemma StartView.Names.keep {v : StartView} (h : v.Names w) (hvalid : w.Valid p)
    (hstep : ServedStep p w event w') : v.Names w' where
  newest step child hnewest := (h.newest step child hnewest).imp_left hstep.step.placement_of_some
  cancelled step child hcancelled := (h.cancelled step child hcancelled).imp_left (hstep.quiet hvalid)

lemma ClearStep.cancelling (hvalid : w.Valid p) (hstep : ClearStep p w event w') (h : w.Cancelling) :
    w'.Cancelling := by
  refine ⟨hstep.parented hvalid h, fun {worker active'} hactive' => ?_⟩
  rcases hstep.step.jobs_cases hactive' with ⟨hactive, -⟩ | ⟨job, -, -, rfl, -⟩ |
    ⟨active, statement, k, answer, oracle, hactive, -, hevent, hprogram, hperform, rfl⟩
  · exact (h.names hactive).keep hvalid hstep.toServedStep
  · exact ⟨by rintro _ _ ⟨⟩, by rintro _ _ ⟨⟩⟩
  · have hnames := (h.names hactive).keep hvalid hstep.toServedStep
    rw [ActiveJob.startView_next]
    cases statement with
    | latestChild parent =>
      refine ⟨?_, hnames.cancelled⟩
      rintro step child ⟨⟩
      obtain ⟨hlatest, -⟩ := Prod.mk.inj (Option.some.inj hperform)
      obtain ⟨hrow, hchild, -⟩ := Database.latestChild_some hlatest
      exact ⟨hstep.step.placement_of_some (Database.placement_of_get? hrow), hchild⟩
    | startChild => exact ⟨by rintro _ _ ⟨⟩, hnames.cancelled⟩
    | cancelChild id t =>
      -- The run cancels the child it has read.
      refine ⟨hnames.newest, fun step child hcancelled => ?_⟩
      have hmeets := (hvalid.jobs hactive).meets (meets_startProtocol_run p _) startProtocol_rely
      rw [hprogram] at hmeets
      obtain ⟨step', child', hread, rfl⟩ := hmeets.1
      obtain ⟨rfl, rfl⟩ : step' = step ∧ child' = child := by
        simpa [StartView.next, show active.startView.newest = _ from hread] using hcancelled
      obtain ⟨hplace, hchild⟩ := (h.names hactive).newest step' child' hread
      exact ⟨hstep.quiet_of_cancelChild h hevent hplace hchild, hchild⟩
    | findExecution => cases answer <;> exact ⟨hnames.newest, hnames.cancelled⟩
    | _ => exact ⟨hnames.newest, hnames.cancelled⟩

section Runs

variable {w'' : World} {before after : List Event}

lemma valid_of_clearRun (hrun : Run (ClearStep p) World.initial before w) : w.Valid p :=
  WorldRun.valid (hrun.mono fun _ _ _ h => h.step)

lemma cancelling_of_run (hrun : Run (ClearStep p) World.initial before w) : w.Cancelling := by
  refine hrun.invariant (fun _ w => w.Cancelling) cancelling_initial ?_
  intro _ w _ _ hrun h hstep
  exact hstep.cancelling (valid_of_clearRun hrun) h

/-- What is quiet stays quiet in a run. -/
lemma quiet_of_run {top : String} (hrun : Run (ClearStep p) World.initial before w)
    (hquiet : w.Quiet top) (hlater : Run (ClearStep p) w after w') : w'.Quiet top := by
  induction hlater with
  | nil => exact hquiet
  | snoc later last ih => exact last.quiet (valid_of_clearRun (hrun.append later)) ih

/-- **A timeout is honest and complete** if children are cancelled in clear steps only: when a
subworkflow step fails with a timeout, the child it names is cancelled from then on, and nothing
below it is active. -/
theorem timeout_honest {job : Job} {row : StepRow} {error : StepError} {t : ℕ} {answer : StepRow}
    (hrun : Run (ClearStep p) World.initial before w)
    (hstep : ClearStep p w (.statement job (.writeStep row (.childFail error t)) answer) w')
    (htimeout : error.isTimeout = true) (hlater : Run (ClearStep p) w' after w'') :
    ∃ child, w.named job.worker = some (row.id, child) ∧ child.parentStepExecutionId = some row.id ∧
      (∃ childRow, w''.db.executions.get? child.id = some childRow ∧ childRow.status = .cancelled) ∧
      ∀ id other, w''.db.InSubtree child.id id → w''.db.executions.get? id = some other →
        other.status.isActive = false := by
  obtain ⟨active, k, oracle, hactive, rfl, hprogram, -⟩ := hstep.step.of_statement
  have hvalid := valid_of_clearRun hrun
  have hmeets := (hvalid.jobs hactive).meets (meets_startProtocol_run p _) startProtocol_rely
  rw [hprogram] at hmeets
  obtain ⟨child, hnamed⟩ := hmeets.1 htimeout
  obtain ⟨hquiet, hchild⟩ := ((cancelling_of_run hrun).names hactive).cancelled _ child hnamed
  have hend := quiet_of_run (hrun.snoc hstep) (hstep.quiet hvalid hquiet) hlater
  obtain ⟨childRow, hrow, hcancelled, -⟩ := hend.cancelled
  refine ⟨child, Option.bind_eq_some_iff.mpr ⟨active, hactive, hnamed⟩, hchild,
    ⟨childRow, hrow, hcancelled⟩, ?_⟩
  rintro id other (rfl | hdescends) hother
  · rw [← Option.some.inj (hrow.symm.trans hother), hcancelled]
    rfl
  · exact hend.inactive hdescends hother

end Runs

/-! ## Small histories -/

/-- The worker and the step, if the step fails with a timeout. -/
def Event.timedOut : Event → Option (String × StepId)
  | .statement job (.writeStep row (.childFail error _)) _ =>
    if error.isTimeout then some (job.worker, row.id) else none
  | _ => none

lemma Event.eq_of_timedOut {worker : String} {step : StepId}
    (h : event.timedOut = some (worker, step)) :
    ∃ job row error t, ∃ answer : StepRow,
      event = .statement job (.writeStep row (.childFail error t)) answer ∧
      error.isTimeout = true ∧ job.worker = worker ∧ row.id = step := by
  unfold timedOut at h
  split at h
  · split_ifs at h with htimeout
    cases h
    exact ⟨_, _, _, _, _, rfl, htimeout, rfl, rfl⟩
  · cases h

/-- Worker `a` runs the execution `"run"`, which starts a child and is suspended. -/
def childStarted : List Action :=
  trialStart "a" ++ statements "a" 26 (childOracle "child" "callee") ++ [.stop "a"]

/-- After the timeout it runs the execution again and reads the newest child. -/
def childRead : List Action :=
  [.tick 120000, .start (trialJob "a")] ++ statements "a" 12 (childOracle "child" "callee")

/-- The last step of a script is a timeout, and something is true then of the child it names. -/
lemma exists_timeout (actions : List Action) (good : World → ExecutionRow → Prop)
    [∀ w, DecidablePred (good w)]
    (h : (script (World.act p) World.initial actions).any (fun done =>
      done.1.all Event.isServed ∧ (done.2.act p (.statement "a" {})).any fun last =>
        ∃ timeout ∈ last.1.timedOut, ∃ named ∈ done.2.named timeout.1,
          named.1 = timeout.2 ∧ good last.2 named.2)) :
    ∃ before w w' job row error t child, ∃ answer : StepRow, Run (ServedStep p) World.initial before w ∧
      ServedStep p w (.statement job (.writeStep row (.childFail error t)) answer) w' ∧
      error.isTimeout = true ∧ w.named job.worker = some (row.id, child) ∧ good w' child := by
  obtain ⟨before, w, hrun, hserved, hthen⟩ := World.exists_run h
  obtain ⟨event, w', hstep, ⟨worker, step⟩, htimedOut, ⟨_, child⟩, hnamed, rfl, hgood⟩ :=
    World.exists_step hthen
  obtain ⟨job, row, error, t, answer, rfl, htimeout, rfl, rfl⟩ := Event.eq_of_timedOut htimedOut
  exact ⟨before, w, w', job, row, error, t, child, answer,
    hrun.mono_of_all (fun _ _ _ => ServedStep.of_isServed) hserved, .of_isServed hstep rfl, htimeout,
    hnamed, hgood⟩

/-- The child that is cancelled. -/
def Event.cancelledChild : Event → Option String
  | .statement _ (.cancelChild id _) _ => some id
  | _ => none

lemma ClearStep.of_isServed (hstep : WorldStep p w event w')
    (hclear : (event.isServed && event.cancelledChild.isNone) = true) : ClearStep p w event w' where
  toServedStep := .of_isServed hstep (Bool.and_eq_true _ _ ▸ hclear).1
  clear := by rintro job id t answer rfl; cases hclear

/-- All jobs are on the execution. -/
def onlyOn (e : String) (events : List Event) : Bool :=
  events.all fun event => match event with
    | .start job => Decidable.decide (job.executionId = e)
    | _ => true

/-- A child without children, which nobody has begun to run, is cancelled in a clear step. -/
lemma ClearStep.of_leaf {events : List Event} {leaf : String}
    (hrun : Run (WorldStep p) World.initial events w) (hstep : WorldStep p w event w')
    (hserved : event.isServed = true) (hcancels : event.cancelledChild = some leaf)
    (hactive : (w.db.executions.get? leaf).any (·.status.isActive) = true)
    (hleaf : (w.db.executions.rows.all fun row =>
      Decidable.decide (row.parentExecutionId ≠ some leaf)) = true)
    (honly : onlyOn e events = true) (hne : e ≠ leaf) : ClearStep p w event w' := by
  have hnone : ∀ {other}, ¬ Descends w.db.parentOf other leaf := by
    intro other hdescends
    obtain ⟨last, -, hlast⟩ := Relation.TransGen.tail'_iff.mp hdescends
    obtain ⟨row, hrow, hparent⟩ := Option.bind_eq_some_iff.mp hlast
    exact of_decide_eq_true (List.all_eq_true.mp hleaf row (Table.get?_eq_some_iff.mp hrow).1) hparent
  refine { ServedStep.of_isServed hstep hserved with clear := ?_ }
  rintro job id t answer rfl
  obtain rfl : id = leaf := Option.some.inj hcancels
  refine ⟨by rwa [← Option.any_eq_true], fun _ _ hdescends => absurd hdescends hnone, ?_⟩
  intro worker runner hrunner _
  have hjob := of_decide_eq_true (List.all_eq_true.mp honly _ (WorldRun.start_mem hrun hrunner))
  rintro (heq | hdescends)
  · exact hne (hjob ▸ heq)
  · exact hnone hdescends

/-- A child that nobody runs is cancelled when its parent times out. -/
theorem idle_child_cancelled :
    ∃ before w w' job row error t child, ∃ answer : StepRow,
      Run (ClearStep callPlatform) World.initial before w ∧
      ClearStep callPlatform w (.statement job (.writeStep row (.childFail error t)) answer) w' ∧
      error.isTimeout = true ∧ w.named job.worker = some (row.id, child) ∧
      ∃ childRow, w'.db.executions.get? child.id = some childRow ∧ childRow.status = .cancelled := by
  have hscript : (script (World.act callPlatform) World.initial
      (childStarted ++ childRead ++ statements "a" 1)).any (fun read =>
        (read.1.all fun event => event.isServed && event.cancelledChild.isNone) ∧
        onlyOn "run" read.1 ∧ (read.2.db.executions.get? "child").any (·.status.isActive) ∧
        (read.2.db.executions.rows.all fun row => decide (row.parentExecutionId ≠ some "child")) ∧
        (read.2.act callPlatform (.statement "a" {})).any fun cancelled =>
          cancelled.1.isServed ∧ cancelled.1.cancelledChild = some "child" ∧
          (cancelled.2.act callPlatform (.statement "a" {})).any fun timed =>
            (timed.1.isServed && timed.1.cancelledChild.isNone) ∧
            (timed.2.act callPlatform (.statement "a" {})).any fun last =>
              ∃ timeout ∈ last.1.timedOut, True) := by
    decide +kernel
  obtain ⟨events, w₁, hrun₁, hclear, honly, hactive, hleaf, hthen⟩ := World.exists_run hscript
  obtain ⟨event₂, w₂, hstep₂, hserved, hcancels, hthen⟩ := World.exists_step hthen
  obtain ⟨event₃, w₃, hstep₃, hclear₃, hthen⟩ := World.exists_step hthen
  obtain ⟨event₄, w₄, hstep₄, ⟨worker, step⟩, htimedOut, -⟩ := World.exists_step hthen
  obtain ⟨job, row, error, t, answer, rfl, htimeout, rfl, rfl⟩ := Event.eq_of_timedOut htimedOut
  have hcancel := ClearStep.of_leaf hrun₁ hstep₂ hserved hcancels hactive hleaf honly (by decide)
  have hrun : Run (ClearStep callPlatform) World.initial _ w₃ :=
    ((hrun₁.mono_of_all (fun _ _ _ h hevent => .of_isServed h hevent) hclear).snoc hcancel).snoc
      (.of_isServed hstep₃ hclear₃)
  have hlast : ClearStep callPlatform _ _ _ := .of_isServed hstep₄ rfl
  obtain ⟨child, hnamed, -, hcancelled, -⟩ := timeout_honest hrun hlast htimeout .nil
  exact ⟨_, _, _, _, _, _, _, child, _, hrun, hlast, htimeout, hnamed, hcancelled⟩

/-- A step times out whose child is completed: it completes after it was read and before it is
cancelled. A step times out whose child has a child that stays active. -/
theorem timeout_misses :
    (∃ before w w' job row error t child, ∃ answer : StepRow,
      Run (ServedStep callPlatform) World.initial before w ∧
      ServedStep callPlatform w (.statement job (.writeStep row (.childFail error t)) answer) w' ∧
      error.isTimeout = true ∧ w.named job.worker = some (row.id, child) ∧
      ∃ childRow, w'.db.executions.get? child.id = some childRow ∧ childRow.status = .completed) ∧
    ∃ before w w' job row error t child, ∃ answer : StepRow,
      Run (ServedStep (trialPlatform callWorkflow)) World.initial before w ∧
      ServedStep (trialPlatform callWorkflow) w
        (.statement job (.writeStep row (.childFail error t)) answer) w' ∧
      error.isTimeout = true ∧ w.named job.worker = some (row.id, child) ∧
      ∃ id other, Descends w'.db.parentOf id child.id ∧ w'.db.executions.get? id = some other ∧
        other.status.isActive = true := by
  constructor
  · exact exists_timeout (childStarted ++ childRead ++
        (.start ⟨"b", "child", "org"⟩ :: statements "b" 27) ++ statements "a" 3)
      (fun w child => ∃ row ∈ w.db.executions.get? child.id, row.status = .completed)
      (by decide +kernel)
  · obtain ⟨before, w, w', job, row, error, t, child, answer, hrun, hstep, htimeout, hnamed, other,
      hother, hparent, hactive⟩ := @exists_timeout (trialPlatform callWorkflow)
        (childStarted ++ (.start ⟨"b", "child", "org"⟩ ::
          statements "b" 27 (childOracle "grandchild" "leaf")) ++ [.stop "b"] ++ childRead ++
          statements "a" 3)
        (fun w child => ∃ row ∈ w.db.executions.get? "grandchild",
          row.parentExecutionId = some child.id ∧ row.status.isActive) _ (by decide +kernel)
    refine ⟨before, w, w', job, row, error, t, child, answer, hrun, hstep, htimeout, hnamed, "grandchild",
      other, .single ?_, hother, hactive⟩
    rw [Database.parentOf, show w'.db.executions.get? "grandchild" = some other from hother,
      Option.bind_some, hparent]

end Flowmind
