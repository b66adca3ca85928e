import Flowmind.Context.Services
import Flowmind.Graph.Regions

/-!
# What a try block leaves of the results around it

The body and the finally region of a try block run in the context around the block.  When one of
them begins, the results in this context are replaced by the stored ones of its own path.

* `Contexts.lastTaken` — the results a context was last given as a whole.
* `try_block_keeps_results_iff` — at any moment of a run of the block, the results around it are
  visible exactly if they were among those; with nothing but steps of the block stored under its
  paths, all of them are lost as soon as a region has begun.
-/

namespace Flowmind

open Program

/-- Every result is still there, with the same status and output. -/
def StepResults.KeptIn (before after : StepResults) : Prop :=
  ∀ key result, before key = some result → after key = some result

namespace Contexts

/-- The results the statement gives to the context, in place of all others. -/
def taken (context : ContextId) : Statement → Option (List (String × ContextStep))
  | .setSteps context' _ steps => if context' = context then some steps else none
  | _ => none

/-- The results the context was last given as a whole, by some statements. -/
def lastTaken (context : ContextId) (log : List (Sigma Answer)) :
    Option (List (String × ContextStep)) :=
  (log.filterMap fun answered => taken context answered.1).getLast?

lemma lastTaken_snoc (context : ContextId) (log : List (Sigma Answer)) (answered : Sigma Answer) :
    lastTaken context (log ++ [answered]) = (taken context answered.1).or (lastTaken context log) := by
  cases htaken : taken context answered.1 <;> simp [htaken, lastTaken]

/-- The results are those last taken, apart from steps whose results were put there one by one. -/
lemma steps_after {contexts : Contexts} {context : ContextId} {key : String} {log : List (Sigma Answer)}
    (h : ∀ answered ∈ log, ∀ result, answered.1 ≠ .setStepResult context key result) :
    contexts.after log context key =
      ((lastTaken context log).map fromEntries).getD (contexts context) key := by
  induction log using List.reverseRecOn with
  | nil => rfl
  | append_singleton log answered ih =>
    have ih := ih fun answered' hmem => h answered' (List.mem_append_left _ hmem)
    have hlast := h answered (by simp)
    rw [after_snoc, lastTaken_snoc]
    obtain ⟨statement, answer⟩ := answered
    cases statement with
    | setSteps context' path steps =>
      by_cases hcontext : context' = context
      · simp [next, taken, hcontext]
      · simp [next, taken, hcontext, Function.update_of_ne (Ne.symm hcontext), ih]
    | setStepResult context' key' result =>
      by_cases hcontext : context' = context
      · subst hcontext
        have hkey : key ≠ key' := fun heq => hlast result (by rw [heq])
        simp [next, taken, Function.update_of_ne hkey, ih]
      · simp [next, taken, Function.update_of_ne (Ne.symm hcontext), ih]
    | _ => exact ih

end Contexts

namespace TryCatch

variable {p : Platform} {e : String} {graph : RuntimeGraph} {depth : ℕ} {input : TryInput}
  {log : List (Sigma Answer)} {left : Eng ServiceOutcome}

/-- A try block puts no results into the context around it but those of its own steps. -/
lemma mem_blockKeys_of_setStepResult
    (hcontext : input.parentContext = .execution ∨ input.parentContext = .iteration input.parentPath)
    (hreach : Reaches (execute p e graph (services p e graph depth).forEach input) log left)
    (hanswers : ∀ answered ∈ log, answersFor e answered.1 answered.2) {answered : Sigma Answer}
    (hmem : answered ∈ log) {key : String} {result : ContextStep}
    (heq : answered.1 = .setStepResult input.parentContext key result) :
    key ∈ blockKeys graph input.step.key := by
  let allowed (context : ContextId) (key : String) : Prop :=
    context = input.parentContext → key ∈ blockKeys graph input.step.key
  have hbelow : AllowedBelow allowed input.parentPath.length := by
    -- The context around the block is not one of a longer path.
    intro path key hlt
    constructor <;> intro hpath <;> rcases hcontext with hroot | hloop
    · rw [hroot] at hpath
      cases hpath
    · rw [hloop] at hpath
      cases hpath
      exact absurd hlt (lt_irrefl _)
    · rw [hroot] at hpath
      cases hpath
    · rw [hloop] at hpath
      cases hpath
  let v : FrameView := ⟨fun _ _ => none, fun _ => some input.parentContext, fun _ => []⟩
  have hin : v.In ⟨input.parentContext, input.parentPath⟩ :=
    ⟨fun _ _ _ _ hkey => (nomatch hkey), rfl⟩
  obtain ⟨_, -, hallowed⟩ := (finishes_execute (fun _ hkey _ => hkey) hbelow
    (serves_services graph depth _ hbelow).2 v hin).ok_of_reaches hreach hanswers hmem
  exact hallowed _ _ _ heq rfl

end TryCatch

/-- **What a try block leaves of the results around it.**  At any moment of its run the results are
visible exactly if the region that began last in their context found all of them stored under its
own path; if only steps of the block are stored there, exactly if there are no results at all. -/
theorem try_block_keeps_results_iff {p : Platform} {e : String} {graph : RuntimeGraph} {depth : ℕ}
    {input : TryInput} {log : List (Sigma Answer)} {left : Eng ServiceOutcome} (contexts : Contexts)
    (hcontext : input.parentContext = .execution ∨ input.parentContext = .iteration input.parentPath)
    (hreach : Reaches (TryCatch.execute p e graph (services p e graph depth).forEach input) log left)
    (hanswers : ∀ answered ∈ log, answersFor e answered.1 answered.2)
    (hown : ∀ key ∈ TryCatch.blockKeys graph input.step.key,
      contexts input.parentContext key = none) :
    ((contexts input.parentContext).KeptIn (contexts.after log input.parentContext) ↔
        ∀ steps, Contexts.lastTaken input.parentContext log = some steps →
          (contexts input.parentContext).KeptIn (fromEntries steps)) ∧
      ∀ steps, Contexts.lastTaken input.parentContext log = some steps →
        (∀ entry ∈ steps, entry.1 ∈ TryCatch.blockKeys graph input.step.key) →
        ((contexts input.parentContext).KeptIn (contexts.after log input.parentContext) ↔
          ∀ key, contexts input.parentContext key = none) := by
  have hsteps : ∀ key result, contexts input.parentContext key = some result →
      contexts.after log input.parentContext key =
        ((Contexts.lastTaken input.parentContext log).map fromEntries).getD
          (contexts input.parentContext) key := by
    intro key result hbefore
    refine Contexts.steps_after fun answered hmem result' heq => ?_
    have hkey := TryCatch.mem_blockKeys_of_setStepResult hcontext hreach hanswers hmem heq
    rw [hown key hkey] at hbefore
    cases hbefore
  have hiff : (contexts input.parentContext).KeptIn
      (contexts.after log input.parentContext) ↔
        ∀ steps, Contexts.lastTaken input.parentContext log = some steps →
          (contexts input.parentContext).KeptIn (fromEntries steps) := by
    constructor
    · intro h steps hlast key result hbefore
      have hafter := h key result hbefore
      rwa [hsteps key result hbefore, hlast] at hafter
    · intro h key result hbefore
      rw [hsteps key result hbefore]
      cases hlast : Contexts.lastTaken input.parentContext log with
      | none => exact hbefore
      | some steps => exact h steps hlast key result hbefore
  refine ⟨hiff, fun steps hlast hblock => hiff.trans ⟨fun h key => ?_, fun h steps' _ key result => ?_⟩⟩
  · cases hbefore : contexts input.parentContext key with
    | none => rfl
    | some result =>
      have hfound := mem_of_fromEntries (h steps hlast key result hbefore)
      rw [← hbefore]
      exact hown key (hblock _ hfound)
  · intro hbefore
    rw [h key] at hbefore
    cases hbefore

/-! ### A step before a try block -/

/-- An order is loaded, and then charged in a try block. -/
def chargeSteps : List GraphStepLike :=
  [⟨none, "load", .transform, .obj []⟩, ⟨none, "guard", .tryCatch, .obj []⟩,
    ⟨none, "charge", .transform, .obj []⟩, ⟨none, "rescue", .transform, .obj []⟩,
    ⟨none, "cleanup", .transform, .obj []⟩, ⟨none, "end", .transform, .obj []⟩]

def chargeGraphJson : Json :=
  .obj [("entryStepKey", .str "load"),
    ("edges", .arr [storedEdge "load" "guard" .next, storedEdge "guard" "charge" .tryBody,
      storedEdge "guard" "rescue" .tryCatch, storedEdge "guard" "cleanup" .tryFinally,
      storedEdge "guard" "end" .tryDone, storedEdge "charge" "cleanup" .next,
      storedEdge "rescue" "cleanup" .next, storedEdge "cleanup" "end" .next])]

/-- The graph as the worker reads it. -/
def chargeGraph : RuntimeGraph where
  entryStepKey := "load"
  edges := [⟨"load", "guard", .next, none, none⟩, ⟨"guard", "charge", .tryBody, none, none⟩,
    ⟨"guard", "rescue", .tryCatch, none, none⟩, ⟨"guard", "cleanup", .tryFinally, none, none⟩,
    ⟨"guard", "end", .tryDone, none, none⟩, ⟨"charge", "cleanup", .next, none, none⟩,
    ⟨"rescue", "cleanup", .next, none, none⟩, ⟨"cleanup", "end", .next, none, none⟩]
  terminalStepKeys := none

/-- The definition as the worker gets it. -/
def chargeWorkflow : WorkflowDefinition where
  json := .obj [("workflowDefinitionSchemaVersion", .num 2), ("graph", chargeGraphJson)]
  steps := ⟨[⟨"load", .transform, 1, .obj [], none⟩, ⟨"guard", .tryCatch, 2, .obj [], none⟩,
    ⟨"charge", .transform, 3, .obj [], none⟩, ⟨"rescue", .transform, 4, .obj [], none⟩,
    ⟨"cleanup", .transform, 5, .obj [], none⟩, ⟨"end", .transform, 6, .obj [], none⟩], by decide⟩

/-- The try block, which has not begun. -/
def guardInput : TryInput where
  step := ⟨"guard", .tryCatch, 2, .obj [], none⟩
  row := newStep ⟨"run", "guard", rootPath⟩ .tryCatch none 1
  parentContext := .execution
  parentPath := rootPath
  iterationIndex := none

/-- Its row is stored. -/
def guardStored : Database where
  executions := .empty
  steps := ⟨[guardInput.row], List.nodup_singleton _⟩
  approvals := .empty

/-- The first statements of the block, on its own. -/
def guardRun (count : ℕ) : List (Sigma Answer) × Eng ServiceOutcome :=
  (TryCatch.execute (trialPlatform chargeWorkflow) "run" chargeGraph
    (services (trialPlatform chargeWorkflow) "run" chargeGraph 1).forEach guardInput).follow
      (fun db statement => statement.perform (trialPlatform chargeWorkflow) ⟨"a", "run", "org"⟩ 0 {} db)
      count guardStored

/-- The order is loaded. -/
def orderLoaded : Contexts :=
  Contexts.next (fun _ _ => none)
    (.setStepResult .execution "load" ⟨.completed, some (.obj [("id", .num 7)])⟩)

lemma guardRun_answersFor (count : ℕ) :
    ∀ answered ∈ (guardRun count).1, answersFor "run" answered.1 answered.2 := by
  refine Prog.forall_mem_follow ?_ _ _ _
  intro db statement answer db' h
  exact answersFor_perform h

/-- The block returns; the region that began last has found nothing of its own.  So the order is not
visible, and only if nothing was there before, everything is. -/
theorem order_hidden_after_block :
    (guardRun 40).2.returns ServiceOutcome.isCompleted = true ∧
      ¬ (orderLoaded .execution).KeptIn (orderLoaded.after (guardRun 40).1 .execution) ∧
      StepResults.KeptIn (fun _ => none) (Contexts.after (fun _ _ => none) (guardRun 40).1 .execution) := by
  have hlast : (Contexts.lastTaken .execution (guardRun 40).1).any (·.isEmpty) = true := by
    decide +kernel
  obtain ⟨steps, hsteps, hempty⟩ := (Option.any_eq_true _ _).mp hlast
  obtain rfl := List.isEmpty_iff.mp hempty
  have hown : ∀ key ∈ TryCatch.blockKeys chargeGraph "guard",
      orderLoaded .execution key = none := by
    simp only [← Option.isNone_iff_eq_none]
    decide +kernel
  have hiff := fun contexts hown => (try_block_keeps_results_iff contexts (.inl rfl)
    (Prog.reaches_follow _ 40 _ _) (guardRun_answersFor 40) hown).2 [] hsteps (by simp)
  refine ⟨by decide +kernel, fun hkept => ?_, (hiff (fun _ _ => none) fun _ _ => rfl).mpr fun _ => rfl⟩
  cases (hiff orderLoaded hown).mp hkept "load"

/-- When the block returns, the order is gone. -/
theorem order_lost_by_try_block :
    validateGraphV2 .integers chargeSteps (some chargeGraphJson) = [] ∧
      parseRuntimeGraph .integers chargeWorkflow.json = some chargeGraph ∧
      ∃ log output,
        Reaches (TryCatch.execute (trialPlatform chargeWorkflow) "run" chargeGraph
          (services (trialPlatform chargeWorkflow) "run" chargeGraph 1).forEach guardInput) log
          (.ret output) ∧
        output.isCompleted = true ∧ (∀ answered ∈ log, answersFor "run" answered.1 answered.2) ∧
        orderLoaded .execution "load" = some ⟨.completed, some (.obj [("id", .num 7)])⟩ ∧
        orderLoaded.after log .execution "load" = none := by
  obtain ⟨output, hleft, hcompleted⟩ := Prog.eq_ret_of_returns
    (show (guardRun 40).2.returns ServiceOutcome.isCompleted = true by decide +kernel)
  refine ⟨by decide +kernel, rfl, (guardRun 40).1, output, ?_, hcompleted, guardRun_answersFor 40, rfl, ?_⟩
  · rw [← hleft]
    exact Prog.reaches_follow _ 40 _ _
  · rw [← Option.isNone_iff_eq_none]
    decide +kernel

end Flowmind
