import Flowmind.Engine.Effects
import Flowmind.System.World

/-!
# What a step does to a row

* A row of the table of step executions after a step of the world is a function of the row before it
  and of the event (`WorldStep.get?_steps`).
* A row of the table of executions stays, and is as it was or the event has updated it
  (`WorldStep.execution_cases`); what the update is can be read off the event (`Event.onExecution`).

Invariants of rows are proved from these.
-/

namespace Flowmind

open Store Database

/-! ## Single statements -/

/-- The step execution `id` after a statement of a pass. -/
def RecoveryStatement.onStep (id : StepId) (found : Option StepRow) :
    RecoveryStatement → Option StepRow
  | .abandonStep row t => if id = row.id then found.map (abandon row.stepType t) else found
  | _ => found

/-- The step execution `id` after a write of the API. -/
def ApiWrite.onStep (clock : ℕ) (id : StepId) (found : Option StepRow) : ApiWrite → Option StepRow
  | .skipWait row skippedAt =>
    if id = row.id then found.map (waitSkipped row skippedAt clock) else found
  | _ => found

/-- The step execution `id` after an event. -/
def Event.onStep (clock : ℕ) (id : StepId) (found : Option StepRow) : Event → Option StepRow
  | .statement job made _ => made.onStep job.executionId id found
  | .passStatement _ made _ => made.onStep id found
  | .api write => write.onStep clock id found
  | _ => found

variable {p : Platform} {db db' : Database} {id : StepId} {clock : ℕ}

lemma RecoveryStatement.get?_perform {oracle : RecoveryOracle} {statement : RecoveryStatement} :
    (statement.perform clock oracle db).2.steps.get? id = statement.onStep id (db.steps.get? id) := by
  cases statement with
  | abandonStep row now => exact get?_updateStep_eq
  | expireApproval approval now =>
    simp only [perform]
    split <;> rfl
  | _ => rfl

lemma ApiWrite.get?_perform {write : ApiWrite} (h : write.perform p clock db = some db') :
    db'.steps.get? id = write.onStep clock id (db.steps.get? id) := by
  cases write with
  | create row webhook => exact congrArg (·.get? id) (steps_createExecution h)
  | skipWait row skippedAt =>
    simp only [perform] at h
    split at h
    · rw [← Option.some.inj h]
      exact @Database.get?_updateStep_eq db id row.id (waitSkipped row skippedAt clock) fun _ => rfl
    · cases h
  | requestApproval approval =>
    simp only [perform] at h
    split at h <;> rw [← Option.some.inj h] <;> rfl
  | decideApproval stepExecutionId approved =>
    simp only [perform, Option.map_eq_some_iff] at h
    obtain ⟨approval, -, heq⟩ := h
    rw [← heq]
    split <;> rfl
  | _ =>
    simp only [perform, Option.some.injEq] at h
    rw [← h]
    rfl

/-- Every row of the table of step executions after a step. -/
lemma WorldStep.get?_steps {w w' : World} {event : Event} (hstep : WorldStep p w event w') :
    w'.db.steps.get? id = event.onStep w.clock id (w.db.steps.get? id) := by
  cases hstep with
  | statement oracle hactive hprogram hperform => exact Statement.get?_perform hperform
  | passStatement oracle hactive hprogram hperform =>
    rw [Event.onStep, ← RecoveryStatement.get?_perform, hperform]
    rfl
  | api hperform => exact ApiWrite.get?_perform hperform
  | _ => rfl

/-! ## Executions -/

/-- A conditional update of a row. -/
structure RowUpdate where
  applies : ExecutionRow → Bool
  data : ExecutionRow → ExecutionRow

/-- No update. -/
def RowUpdate.none : RowUpdate := ⟨fun _ => false, fun row => row⟩

/-- The execution is this one, and active. -/
def activeRow (executionId : String) (row : ExecutionRow) : Bool :=
  decide (row.id = executionId) && row.status.isActive

/-- What a statement of a job does to executions; `now` is the time that the statement uses. -/
def Statement.onExecution (p : Platform) (job : Job) (now : ℕ) : Statement → RowUpdate
  | .acquire =>
    ⟨Lease.acquirable job.worker job.executionId job.organizationId now, fun row =>
      { row with
        lockedBy := some job.worker, lockedUntil := some (now + p.leaseDurationMs)
        status := .running, runAttempt := row.runAttempt + 1 }⟩
  | .release =>
    ⟨fun row => Decidable.decide (row.id = job.executionId) &&
        Decidable.decide (row.lockedBy = some job.worker),
      fun row => { row with lockedBy := none, lockedUntil := none }⟩
  | .markStarted startedAt =>
    ⟨activeRow job.executionId, fun row =>
      { row with startedAt := some startedAt, completedAt := none }⟩
  | .markWaiting waitReason =>
    ⟨activeRow job.executionId, fun row =>
      { row with
        status := .retrying, completedAt := none, waitReason := some (waitReason.getD .retry) }⟩
  | .transitionTerminal failure completedAt =>
    ⟨fun row => Decidable.decide (row.id = job.executionId) &&
        Decidable.decide (row.organizationId = job.organizationId) && row.status.isActive,
      fun row =>
        { row with
          status := if failure.isSome then .failed else .completed
          waitReason := none, completedAt := some completedAt, errorJson := failure }⟩
  | .writeOutput output =>
    ⟨fun row => Decidable.decide (row.id = job.executionId), fun row => { row with outputJson := output }⟩
  | .cancelChild id completedAt =>
    ⟨activeRow id, fun row =>
      { row with
        status := .cancelled, completedAt := some completedAt, lockedBy := Option.none
        lockedUntil := Option.none }⟩
  | _ => .none

/-- An execution that waits for an approval goes back into the queue. -/
def approvalResumed (executionId : String) : RowUpdate :=
  ⟨fun row => decide (row.id = executionId) && decide (row.status = .retrying) &&
      decide (row.waitReason = some .approval),
    fun row => { row with status := .queued, waitReason := Option.none }⟩

/-- What a statement of a pass does to executions. -/
def RecoveryStatement.onExecution : RecoveryStatement → RowUpdate
  | .recoverExecution executionId t =>
    ⟨fun row => decide (row.id = executionId) && expiredRunning t row, fun row =>
      { row with status := .queued, lockedBy := Option.none, lockedUntil := Option.none }⟩
  | .expireApproval approval _ => approvalResumed approval.executionId
  | .resumeApproved executionId => approvalResumed executionId
  | .requeue executionId =>
    ⟨fun row => decide (row.id = executionId) &&
        (decide (row.status = .retrying) || decide (row.status = .queued)),
      fun row => { row with status := .queued }⟩
  | _ => .none

/-- What a write of the API does to executions that are there. -/
def ApiWrite.onExecution (clock : ℕ) (approvals : Table ApprovalRow ApprovalRow.stepExecutionId) :
    ApiWrite → RowUpdate
  | dispatched executionId => ⟨fun row => decide (row.id = executionId), enqueued⟩
  | dispatchFailed executionId =>
    ⟨fun row => decide (row.id = executionId) &&
      (decide (row.status = .pending) || decide (row.status = .queued)), enqueueFailed clock⟩
  | dispatchRetried executionId => ⟨fun row => decide (row.id = executionId), enqueuedAgain⟩
  | dispatchDeferred executionId => ⟨fun row => decide (row.id = executionId), enqueueDeferred⟩
  | cancel executionId organizationId =>
    ⟨fun row => decide (row.id = executionId) && decide (row.organizationId = organizationId) &&
      row.status.isActive, cancelled clock⟩
  | cancelDescendants rootExecutionId organizationId =>
    ⟨fun row => decide (row.rootExecutionId = some rootExecutionId) &&
      decide (row.organizationId = organizationId) && row.status.isActive, cancelled clock⟩
  | cancelTestRun executionId =>
    ⟨fun row => decide (row.id = executionId), testRunCancelled clock⟩
  | skipWait row _ => ⟨fun found => decide (found.id = row.id.executionId), resumedEarly⟩
  | decideApproval stepExecutionId _ =>
    match approvals.get? stepExecutionId with
    | some approval => approvalResumed approval.executionId
    | Option.none => .none
  | _ => .none

/-- What an event does to executions that are there. -/
def Event.onExecution (p : Platform) (w : World) (now : ℕ) : Event → RowUpdate
  | .statement job made _ => made.onExecution p job now
  | .heartbeat worker executionId =>
    ⟨Lease.owned worker executionId now, fun row =>
      { row with lockedUntil := some (now + p.leaseDurationMs) }⟩
  | .passStatement _ made _ => made.onExecution
  | .api write => write.onExecution w.clock w.db.approvals
  | _ => .none

/-- The row has been updated, or left alone. -/
def RowUpdate.Maybe (update : RowUpdate) (row row' : ExecutionRow) : Prop :=
  row' = row ∨ (update.applies row = true ∧ row' = update.data row)

variable {row : ExecutionRow} {e : String}

/-- The row that an event creates. -/
def Event.creates (clock : ℕ) : Event → Option ExecutionRow
  | .api (.create created webhook) => some (ApiWrite.created created webhook clock)
  | .statement _ (.startChild _ _ child) _ =>
    some { child with status := .queued, lockedBy := none, lockedUntil := none }
  | _ => none

/-- The executions that are there are updated or left alone, and none is new but the one created. -/
structure Database.Moves (db : Database) (update : RowUpdate) (created : Option ExecutionRow)
    (db' : Database) : Prop where
  there : ∀ {e row}, db.executions.get? e = some row →
    ∃ row', db'.executions.get? e = some row' ∧ update.Maybe row row'
  new : ∀ {e row}, db.executions.get? e = none → db'.executions.get? e = some row →
    created = some row

namespace Database.Moves

variable {db₁ : Database} {update : RowUpdate} {created : Option ExecutionRow}

lemma of_eq (h : db'.executions = db.executions) : db.Moves update created db' where
  there hrow := ⟨_, h ▸ hrow, .inl rfl⟩
  new hnone hrow := absurd (hnone.symm.trans (h ▸ hrow)) (by simp)

lemma of_updateExecutions {where_ : ExecutionRow → Bool} {data : ExecutionRow → ExecutionRow}
    {hid : ∀ row, (data row).id = row.id} (h : db₁.executions = db.executions) :
    db.Moves ⟨where_, data⟩ created (db₁.updateExecutions where_ data hid) where
  there {e row} hrow := by
    refine ⟨if where_ row then data row else row, ?_, ?_⟩
    · rw [get?_updateExecutions, h, hrow, Option.map_some]
    · by_cases happlies : where_ row = true
      · exact .inr ⟨happlies, if_pos happlies⟩
      · exact .inl (if_neg happlies)
  new {e row} hnone hrow := by
    rw [get?_updateExecutions, h, hnone] at hrow
    cases hrow

lemma of_createExecution {row : ExecutionRow} (hcreate : db₁.createExecution row = some db')
    (h : db₁.executions = db.executions) : db.Moves update (some row) db' where
  there {e old} hold := by
    refine ⟨old, ?_, .inl rfl⟩
    rw [get?_createExecution hcreate, if_neg, h, hold]
    rintro rfl
    unfold Database.createExecution at hcreate
    split at hcreate
    case isTrue hfresh => rw [h, hold] at hfresh; cases hfresh
    case isFalse => cases hcreate
  new {e new} hnone hnew := by
    rw [get?_createExecution hcreate, h, hnone] at hnew
    split at hnew
    · exact hnew
    · cases hnew

end Database.Moves

section Executions

variable {statement : Statement} {answer : Answer statement}

open Database.Moves

lemma Statement.moves {job : Job} {oracle : Oracle}
    (h : statement.perform p job clock oracle db = some (answer, db')) :
    db.Moves (statement.onExecution p job (clock - oracle.lag))
      ((Event.statement job statement answer).creates clock) db' := by
  cases statement with
  | acquire | release | markStarted | markWaiting | transitionTerminal | writeOutput | cancelChild =>
    have hdb : _ = db' := congrArg Prod.snd (Option.some.inj h)
    subst hdb
    exact of_updateExecutions rfl
  | upsertStep step executionPath iterationIndex maxAttempts =>
    have hdb := congrArg (fun result => result.2.executions) (Option.some.inj h)
    exact of_eq (hdb.symm.trans executions_upsertStep)
  | writeStep row write =>
    simp only [perform, Option.map_eq_some_iff] at h
    obtain ⟨found, -, heq⟩ := h
    exact of_eq (by rw [← (Prod.mk.inj heq).2]; rfl)
  | startChild row write child =>
    simp only [perform, Option.map_eq_some_iff] at h
    obtain ⟨db₁, hcreate, heq⟩ := h
    rw [← (Prod.mk.inj heq).2]
    exact of_createExecution hcreate rfl
  | exhausted loop => cases h
  | _ =>
    have hdb := congrArg (fun result => result.2.executions) (Option.some.inj h)
    exact of_eq hdb.symm

lemma RecoveryStatement.moves {oracle : RecoveryOracle} {statement : RecoveryStatement} :
    db.Moves statement.onExecution none (statement.perform clock oracle db).2 := by
  cases statement with
  | recoverExecution | resumeApproved | requeue => exact of_updateExecutions rfl
  | expireApproval approval t =>
    simp only [perform]
    split
    · exact of_eq rfl
    · exact of_updateExecutions rfl
  | _ => exact of_eq rfl

lemma ApiWrite.moves {write : ApiWrite} (h : write.perform p clock db = some db') :
    db.Moves (write.onExecution clock db.approvals) ((Event.api write).creates clock) db' := by
  cases write with
  | create created webhook => exact of_createExecution h rfl
  | skipWait step skippedAt =>
    simp only [perform] at h
    split at h
    · rw [← Option.some.inj h]
      exact of_updateExecutions rfl
    · cases h
  | requestApproval approval =>
    simp only [perform] at h
    split at h <;> exact of_eq (by rw [← Option.some.inj h])
  | decideApproval stepExecutionId approved =>
    simp only [perform, Option.map_eq_some_iff] at h
    obtain ⟨approval, happroval, heq⟩ := h
    rw [← heq]
    simp only [onExecution, happroval]
    split
    · exact of_updateExecutions rfl
    · exact of_eq rfl
  | cancelApproval stepExecutionId => exact of_eq (by rw [← Option.some.inj h])
  | _ =>
    rw [← Option.some.inj h]
    exact of_updateExecutions rfl

variable {w w' : World} {event : Event}

/-- The table of executions after a step. -/
lemma WorldStep.moves (hstep : WorldStep p w event w') :
    ∃ now ≤ w.clock, w.db.Moves (event.onExecution p w now) (event.creates w.clock) w'.db := by
  cases hstep with
  | statement oracle hactive hprogram hperform =>
    exact ⟨_, Nat.sub_le _ _, Statement.moves hperform⟩
  | heartbeat worker executionId hnow => exact ⟨_, hnow, of_updateExecutions rfl⟩
  | @passStatement _ _ _ _ _ db oracle hactive hprogram hperform =>
    obtain rfl : _ = db := congrArg Prod.snd hperform
    exact ⟨0, Nat.zero_le _, RecoveryStatement.moves⟩
  | api hperform => exact ⟨0, Nat.zero_le _, ApiWrite.moves hperform⟩
  | _ => exact ⟨0, Nat.zero_le _, of_eq rfl⟩

/-- A row of the table of executions after a step. -/
lemma WorldStep.execution_cases (hstep : WorldStep p w event w')
    (hrow : w.db.executions.get? e = some row) :
    ∃ now ≤ w.clock, ∃ row', w'.db.executions.get? e = some row' ∧
      (event.onExecution p w now).Maybe row row' := by
  obtain ⟨now, hnow, hmoves⟩ := hstep.moves
  exact ⟨now, hnow, hmoves.there hrow⟩

/-- A row that was not there before a step is the one that the event creates. -/
lemma WorldStep.creates_of_none (hstep : WorldStep p w event w')
    (hnone : w.db.executions.get? e = none) (hrow : w'.db.executions.get? e = some row) :
    event.creates w.clock = some row := by
  obtain ⟨now, -, hmoves⟩ := hstep.moves
  exact hmoves.new hnone hrow

/-! ## What no update changes -/

/-- The mode of an execution and its parent stay. -/
lemma Event.identity_onExecution (p : Platform) (w : World) (now : ℕ) (event : Event)
    (row : ExecutionRow) :
    ((event.onExecution p w now).data row).executionMode = row.executionMode ∧
      ((event.onExecution p w now).data row).parentExecutionId = row.parentExecutionId := by
  cases event with
  | statement job made answer => cases made <;> exact ⟨rfl, rfl⟩
  | passStatement worker made answer => cases made <;> exact ⟨rfl, rfl⟩
  | api write =>
    cases write with
    | decideApproval stepExecutionId approved =>
      simp only [onExecution, ApiWrite.onExecution]
      split <;> exact ⟨rfl, rfl⟩
    | _ => exact ⟨rfl, rfl⟩
  | _ => exact ⟨rfl, rfl⟩

lemma WorldStep.identity (hstep : WorldStep p w event w')
    (hrow : w.db.executions.get? e = some row) :
    ∃ row', w'.db.executions.get? e = some row' ∧ row'.executionMode = row.executionMode ∧
      row'.parentExecutionId = row.parentExecutionId := by
  obtain ⟨now, -, row', hrow', rfl | ⟨-, rfl⟩⟩ := hstep.execution_cases hrow
  · exact ⟨row', hrow', rfl, rfl⟩
  · exact ⟨_, hrow', Event.identity_onExecution p w now event row⟩

end Executions

end Flowmind
