import Flowmind.Protocol.Shape

/-!
# Handlers that a run may invoke

A run invokes a handler only when the policy of test runs was asked about its step and has let it
run, and it enqueues no jobs of the reconciler (`meets_due_run`).
-/

namespace Flowmind

open Program

/-- The statement may be made after others, with their answers. -/
def Statement.IsDue (log : List (Sigma Answer)) : Statement → Prop
  | .invoke _ _ step _ _ => ∃ config, ⟨.decide step config, Decision.runReal⟩ ∈ log
  | .enqueue id => id.isRecovery = false
  | _ => True

/-- A run makes only statements that are due. -/
def dueProtocol (e : String) : Protocol Statement Answer (List (Sigma Answer)) :=
  { Protocol.logging fun log statement => statement.IsDue log with rely := answersFor e }

lemma after_dueProtocol (e : String) (log : List (Sigma Answer)) :
    (dueProtocol e).after [] log = log :=
  (Protocol.after_logging (fun log statement => statement.IsDue log) [] log).trans
    (List.nil_append log)

/-- The program makes only statements that are due, whatever was made before. -/
abbrev MakesDue (e : String) {ε α : Type} (program : Prog Statement Answer ε α) : Prop :=
  ∀ log, Meets (dueProtocol e) (fun _ _ => True) (fun _ _ => True) program log

variable {p : Platform} {e : String} {step : StepDefinition} {row : StepRow}

lemma makesDue_runHandler (context : ContextId) (attempt : ℕ) :
    MakesDue e (runHandler p context step row attempt) := by
  intro log
  have hconfig : MakesDue e (configFor context step row) := by
    intro log
    unfold configFor
    split
    · exact trivial
    · exact .step trivial fun _ _ => .ofExcept (fun _ _ => trivial) fun _ _ => trivial
  refine (hconfig log).bind fun log config _ => .step trivial fun _ _ => .step trivial ?_
  intro (decision : Decision) _
  cases decision with
  | error failure => exact trivial
  | mock result =>
    split <;> exact trivial
  | runReal =>
    refine Meets.ite ?_ trivial
    exact .step ⟨config, by simp [dueProtocol, Protocol.logging]⟩ fun _ _ =>
      .ofExcept (fun _ _ => trivial) fun _ _ => trivial

lemma makesDue_recordResult (result : StepResult) : MakesDue e (recordResult p row result) := by
  refine fun log => .step trivial fun (t : ℕ) _ => ?_
  split
  · exact .step trivial fun _ _ => trivial
  split <;> exact .step trivial fun _ _ => trivial

lemma makesDue_execute (context : ContextId) : MakesDue e (execute p context step row) := by
  refine fun log => .step trivial fun _ _ => .step trivial fun _ _ => ?_
  refine ((makesDue_runHandler context _ _).bind fun _ result _ =>
    makesDue_recordResult result _).handle fun _ failure _ => ?_
  refine .step trivial fun _ _ => .step trivial fun _ _ => ?_
  split <;> exact trivial

/-- **A run makes only statements that are due.** -/
theorem meets_due_run (p : Platform) (e : String) : MakesDue e (run p e) := by
  refine fun log => Meets.mono (fun _ _ _ => trivial) (fun _ _ _ => trivial)
    (inScope_run.meets (fun _ => True) (fun _ _ h => h) ?_ ?_ log trivial)
  · intro log statement _ hallowed
    refine ⟨?_, fun _ _ => trivial⟩
    cases statement with
    | invoke => cases hallowed.single
    | enqueue id => exact hallowed.single
    | _ => exact trivial
  · intro _ _ program hcall log _
    cases hcall with
    | attempt h => exact makesDue_execute _ log
    | subworkflow h htype =>
      refine Meets.mono (fun _ _ _ => trivial) (fun _ _ _ => trivial)
        (Subworkflow.ofSubworkflow_execute.meets (fun _ => True) (fun _ _ h => h) ?_
          (fun h => h.elim) log trivial)
      intro log statement _ hallowed
      refine ⟨?_, fun _ _ => trivial⟩
      cases statement with
      | invoke => cases hallowed
      | enqueue id =>
        change id.isRecovery = false
        simpa [Statement.isOfSubworkflow] using hallowed
      | _ => exact trivial
    | runStep hsteps => cases hsteps

end Flowmind
