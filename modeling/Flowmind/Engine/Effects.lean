import Flowmind.Engine.Statement

/-!
# What a statement does to a step execution

A row of the table of step executions after a statement of a run is a function of the row before it
(`Statement.onStep`, `Statement.get?_perform`).
-/

namespace Flowmind

open Store

/-- What the update of `ensure` does to a row that is there. -/
def refreshed (iterationIndex : Option ℕ) (maxAttempts : ℕ) (row : StepRow) : StepRow :=
  { row with
    maxAttempts := maxAttempts, iterationIndex := iterationIndex.or row.iterationIndex }

/-- The step execution `id` after a statement of a run of `executionId`. -/
def Statement.onStep (executionId : String) (id : StepId) (found : Option StepRow) :
    Statement → Option StepRow
  | .upsertStep step executionPath iterationIndex maxAttempts =>
    if id = ⟨executionId, step.key, executionPath⟩ then
      some ((found.map (refreshed iterationIndex maxAttempts)).getD
        (newStep id step.type iterationIndex maxAttempts))
    else found
  | .writeStep row write | .startChild row write _ =>
    if id = row.id then found.map write.apply else found
  | .markHandled handled =>
    if id = handled then found.map fun row => { row with errorHandled := true } else found
  | _ => found

section Lookup

variable {db db' : Database} {id id' : StepId}

lemma Database.get?_updateStep_eq {data : StepRow → StepRow}
    {hid : ∀ row, (data row).id = row.id} :
    (db.updateStep id' data hid).steps.get? id =
      if id = id' then (db.steps.get? id).map data else db.steps.get? id := by
  rw [get?_updateStep]
  split
  · rfl
  · simp

/-- The row that `ensure` returns. -/
def upserted (db : Database) (id : StepId) (stepType : StepType) (iterationIndex : Option ℕ)
    (maxAttempts : ℕ) : StepRow :=
  ((db.steps.get? id).map (refreshed iterationIndex maxAttempts)).getD
    (newStep id stepType iterationIndex maxAttempts)

variable {stepType : StepType} {iterationIndex : Option ℕ} {maxAttempts : ℕ}

lemma Database.id_upsertStep :
    (db.upsertStep id' stepType iterationIndex maxAttempts).1.id = id' := by
  unfold upsertStep
  split
  case h_1 row hrow =>
    have hid : row.id = id' := Table.key_of_get? hrow
    exact hid
  case h_2 => rfl

lemma Database.get?_upsertStep :
    (db.upsertStep id' stepType iterationIndex maxAttempts).2.steps.get? id =
      if id = id' then some (upserted db id' stepType iterationIndex maxAttempts)
      else db.steps.get? id := by
  unfold upsertStep upserted
  split
  case h_1 row hrow =>
    rw [get?_updateStep_eq]
    split
    case isTrue h => subst h; simp [hrow, refreshed]
    case isFalse => rfl
  case h_2 hrow =>
    have hinsert := Table.get?_insert db.steps (newStep id' stepType iterationIndex maxAttempts) hrow id
    simp only [hrow]
    exact hinsert.trans (by simp [newStep, eq_comm])

lemma Database.executions_upsertStep :
    (db.upsertStep id' stepType iterationIndex maxAttempts).2.executions = db.executions := by
  unfold upsertStep
  split <;> rfl

lemma Database.get?_createExecution {row : ExecutionRow} (h : db.createExecution row = some db')
    (e : String) :
    db'.executions.get? e = if row.id = e then some row else db.executions.get? e := by
  unfold createExecution at h
  split at h
  case isTrue hfresh =>
    rw [← Option.some.inj h]
    exact Table.get?_insert db.executions row hfresh e
  case isFalse => cases h

lemma Database.steps_createExecution {row : ExecutionRow} (h : db.createExecution row = some db') :
    db'.steps = db.steps := by
  unfold createExecution at h
  split at h
  · rw [← Option.some.inj h]
  · cases h

end Lookup

/-- Every row of the table of step executions after a statement. -/
lemma Statement.get?_perform {p : Platform} {db db' : Database} {id : StepId} {clock : ℕ}
    {job : Job} {oracle : Oracle} {statement : Statement} {answer : Answer statement}
    (h : statement.perform p job clock oracle db = some (answer, db')) :
    db'.steps.get? id = statement.onStep job.executionId id (db.steps.get? id) := by
  cases statement with
  | upsertStep step executionPath iterationIndex maxAttempts =>
    have hdb := congrArg (fun result => result.2.steps.get? id) (Option.some.inj h)
    refine hdb.symm.trans (Database.get?_upsertStep.trans ?_)
    rw [onStep]
    split
    case isTrue hid => rw [upserted, ← hid]
    case isFalse => rfl
  | writeStep row write =>
    simp only [perform, Option.map_eq_some_iff] at h
    obtain ⟨found, -, heq⟩ := h
    rw [← (Prod.mk.inj heq).2, Database.get?_updateStep_eq, onStep]
  | startChild row write child =>
    simp only [perform, Option.map_eq_some_iff] at h
    obtain ⟨db₁, hcreate, heq⟩ := h
    rw [← (Prod.mk.inj heq).2, Database.steps_createExecution hcreate,
      Database.get?_updateStep_eq, onStep]
  | markHandled handled =>
    have hdb := congrArg (fun result => result.2.steps.get? id) (Option.some.inj h)
    exact hdb.symm.trans Database.get?_updateStep_eq
  | exhausted loop => cases h
  | _ =>
    have hdb := congrArg (fun result => result.2.steps.get? id) (Option.some.inj h)
    exact hdb.symm

end Flowmind
