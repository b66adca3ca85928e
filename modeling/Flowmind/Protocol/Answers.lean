import Flowmind.Engine.Effects
import Flowmind.Engine.Runner

/-!
# What a run reads

What a run may assume of the answers of the database (`answersFor`), and of the rows that it looks
up in what it has loaded.
-/

namespace Flowmind

/-- What the database answers. -/
def answersFor (executionId : String) : (statement : Statement) → Answer statement → Prop
  | .upsertStep step executionPath _ _, (row : StepRow) =>
    row.id = ⟨executionId, step.key, executionPath⟩
  | .writeStep row _, (found : StepRow) => found.id = row.id
  | .loadExecution, (some loaded : Option LoadedExecution) =>
    ∀ row ∈ loaded.steps, row.id.executionId = executionId
  | _, _ => True

/-- The answers of the database are as assumed. -/
lemma answersFor_perform {p : Platform} {job : Job} {clock : ℕ} {oracle : Oracle} {db db' : Database}
    {statement : Statement} {answer : Answer statement}
    (h : statement.perform p job clock oracle db = some (answer, db')) :
    answersFor job.executionId statement answer := by
  cases statement with
  | upsertStep step executionPath iterationIndex maxAttempts =>
    have hrow := congrArg (fun result => result.1.id) (Option.some.inj h)
    exact hrow.symm.trans Database.id_upsertStep
  | writeStep row write =>
    simp only [Statement.perform, Option.map_eq_some_iff] at h
    obtain ⟨found, hfound, heq⟩ := h
    rw [← (Prod.mk.inj heq).1]
    exact (StepWrite.id_apply write found).trans (Store.Table.key_of_get? hfound)
  | loadExecution =>
    cases h
    cases hrow : (db.executions.get? job.executionId).filter fun row =>
        decide (row.organizationId = job.organizationId) with
    | none => trivial
    | some row => exact fun step hstep => by simpa using (List.mem_filter.mp hstep).2
  | _ => trivial

/-! ## Rows and definitions -/

section Lookup

variable {p : Platform} {e : String} {step : StepDefinition} {row : StepRow} {key : String}

lemma key_of_stepRow? (h : stepRow? p e key = some step) : step.key = key :=
  Store.Table.key_of_get? (Option.filter_eq_some_iff.mp h).1

lemma step?_of_stepRow? (h : stepRow? p e key = some step) (executionPath : String) :
    p.step? ⟨e, step.key, executionPath⟩ = some step := by
  rw [key_of_stepRow? h]
  exact (Option.filter_eq_some_iff.mp h).1

lemma Runner.mem_of_rootRow {current : LoadedExecution} (h : rootRow current key = some row) :
    row ∈ current.steps ∧ row.id = ⟨row.id.executionId, key, rootPath⟩ := by
  have hmatch := List.find?_some h
  simp only [Bool.and_eq_true, decide_eq_true_eq] at hmatch
  refine ⟨List.mem_of_find?_eq_some h, ?_⟩
  rw [← hmatch.1, ← hmatch.2]

end Lookup

/-- The output of a completed step is that of its child. -/
def Subworkflow.OfChild (outcome : ServiceOutcome) : Prop :=
  ∀ output, outcome = .completed output → ∃ child childOutput, output = result child childOutput

end Flowmind
