import Flowmind.Routing.Persisted

/-!
# Outputs that steer the workflow

Steps that do not branch have one `next` edge, and the workflow is meant to go on along it whatever
they put out.  The main loop, the loops and the try blocks all ask `selectedNextStepKey`, which
looks at the output of any step alike: an output with a `nextStepKey` or a `decision` in it is
followed.

* `FollowsNext` — at every level the workflow goes on along the `next` edge.
* `Steers` — the output names another step, or makes a decision that does not lead along the edge.
* `follows_next_iff` — the workflow goes along the edge exactly when neither the output nor what is
  stored of it steers.
-/

namespace Flowmind

/-- The output of a step takes the workflow elsewhere than to `target`. -/
def Steers (graph : RuntimeGraph) (stepKey target : String) (output : Json) : Prop :=
  (∃ key, output.get? "nextStepKey" = some (.str key) ∧ key ≠ "" ∧ key ≠ target) ∨
    ((∀ key, output.get? "nextStepKey" = some (.str key) → key = "") ∧
      ∃ decision, output.get? "decision" = some (.str decision) ∧
        ∀ edge, (graph.outgoingEdges stepKey).find? (fun edge =>
          decide (edge.kind.name = "approval_" ++ jsToLowerCase decision)) = some edge →
          edge.toKey ≠ target)

/-- After the step the workflow goes on to `target`, in the main loop, in the body of a loop and in
a region of a try block.  The main loop reads the output from the row of the step; after a
subworkflow the main loop and the body of a loop go on by the output itself. -/
structure FollowsNext (p : Platform) (graph : RuntimeGraph) (step : StepDefinition) (target : String)
    (output : Json) : Prop where
  root : ∀ current row, Runner.rootRow current step.key = some row →
    row.outputJson = some (p.sanitizePersisted output) →
    Runner.leaveDone graph current step = Runner.leave current step.key (some target)
  rootSubworkflow : ∀ executionId,
    Runner.subworkflowDone executionId graph step output = (do
      Eng.setStepResult .execution step.key .completed (some output)
      let current ← Runner.reload executionId
      Runner.leave current step.key (some target))
  loop : ∀ executionId input config executionPath cursor status,
    ForEach.stepDone p executionId graph input config executionPath step cursor (some output) status =
      ForEach.advance input config { cursor with lastOutput := some output, lastStatus := status } target
  loopSubworkflow : ∀ input config executionPath cursor,
    ForEach.subworkflowDone graph input config executionPath step cursor output = (do
      ForEach.during cursor.state
        (Eng.setStepResult (.iteration executionPath) step.key .completed (some output))
      ForEach.advance input config
        { cursor with lastOutput := some output, lastStatus := .completed } target)
  region : ∀ input region cursor,
    TryCatch.stepDone graph input region step cursor (some output) =
      TryCatch.advance input region cursor target

section

variable {graph : RuntimeGraph} {stepKey target : String}

/-- The choice is the target of the `next` edge exactly when the output does not steer. -/
lemma selectedNextStepKey_eq_target_iff (hnext : nextTarget graph stepKey = some target)
    (output : Json) :
    selectedNextStepKey graph stepKey (some output) = some target ↔
      ¬ Steers graph stepKey target output := by
  have hkey : ∀ key, output.get? "nextStepKey" = some (.str key) ↔
      Json.asString? (Json.field (some output) "nextStepKey") = some key :=
    fun key => Json.asString?_eq_some_iff.symm
  have hdecision : ∀ decision, output.get? "decision" = some (.str decision) ↔
      Json.asString? (Json.field (some output) "decision") = some decision :=
    fun decision => Json.asString?_eq_some_iff.symm
  simp only [selectedNextStepKey_eq, Steers, hkey, hdecision]
  generalize Json.asString? (Json.field (some output) "nextStepKey") = explicit
  generalize Json.asString? (Json.field (some output) "decision") = decision
  by_cases hexplicit : explicit.getD "" = ""
  · -- No step is named: the decision counts, if there is one.
    have hnone : ∀ key, explicit = some key → key = "" := by
      rintro key rfl
      exact hexplicit
    have hnot : ¬ ∃ key, explicit = some key ∧ key ≠ "" ∧ key ≠ target :=
      fun ⟨key, hsome, hne, _⟩ => hne (hnone key hsome)
    cases decision with
    | none => simp [selectedBy, hexplicit, hnext, hnot]
    | some decision =>
      have hselected : selectedBy graph stepKey explicit (some decision) =
          ((graph.outgoingEdges stepKey).find? fun edge =>
            decide (edge.kind.name = "approval_" ++ jsToLowerCase decision)).map (·.toKey) := by
        simp [selectedBy, hexplicit]
      rw [hselected, Option.map_eq_some_iff]
      constructor
      · rintro ⟨edge, hedge, htarget⟩ (hnamed | ⟨-, _, ⟨⟩, hother⟩)
        · exact hnot hnamed
        · exact hother edge hedge htarget
      · intro hsteers
        by_contra hmissing
        exact hsteers (.inr ⟨hnone, decision, rfl, fun edge hedge htarget =>
          hmissing ⟨edge, hedge, htarget⟩⟩)
  · obtain ⟨key, rfl⟩ : ∃ key, explicit = some key := by
      cases explicit with
      | none => exact absurd rfl hexplicit
      | some key => exact ⟨key, rfl⟩
    have hne : key ≠ "" := hexplicit
    simp [selectedBy, hne]

end

/-! ## The three levels -/

/-- A step of a loop body that does not branch. -/
lemma ForEach.stepDone_eq {p : Platform} {executionId : String} {graph : RuntimeGraph}
    {input : ForEachInput} {config : ForEach.Config} {executionPath : String} {step : StepDefinition}
    {cursor : ForEach.Cursor} {output : Option Json} {status : StepExecutionStatus} {selected : String}
    (htype : Runner.isControlStep step.type = false)
    (h : selectedNextStepKey graph step.key output = some selected) :
    ForEach.stepDone p executionId graph input config executionPath step cursor output status =
      ForEach.advance input config { cursor with lastOutput := output, lastStatus := status }
        selected := by
  have hbranch : ¬ ((step.type = .if ∨ step.type = .switch) ∧ selected ≠ input.done) := by
    rintro ⟨hif | hswitch, -⟩
    · rw [hif] at htype
      exact absurd htype (by decide)
    · rw [hswitch] at htype
      exact absurd htype (by decide)
  simp [ForEach.stepDone, h, hbranch]

/-- Where a region goes on is what it stores. -/
lemma TryCatch.advance_inj {input : TryInput} {region : TryCatch.Region} {cursor : TryCatch.Cursor}
    {next next' : String}
    (h : TryCatch.advance input region cursor next = TryCatch.advance input region cursor next') :
    next = next' := by
  injection h with hstatement
  injection hstatement with _ hwrite
  injection hwrite with hstate
  have hkey : (if next = region.exit then none else some next) =
      if next' = region.exit then none else some next' := congrArg TryState.currentStepKey hstate
  split_ifs at hkey with hexit hexit'
  · rw [hexit, hexit']
  · exact Option.some.inj hkey

/-- **A step that does not branch is followed by the target of its `next` edge, at every level,
exactly when neither its output nor what is stored of it steers.** -/
theorem follows_next_iff {p : Platform} {graph : RuntimeGraph} {step : StepDefinition}
    {target : String} (htype : Runner.isControlStep step.type = false)
    (hnext : nextTarget graph step.key = some target) (output : Json) :
    FollowsNext p graph step target output ↔
      ¬ Steers graph step.key target output ∧
        ¬ Steers graph step.key target (p.sanitizePersisted output) := by
  simp only [← selectedNextStepKey_eq_target_iff hnext]
  constructor
  · intro h
    let row := newStep ⟨"", step.key, rootPath⟩ step.type none 0
    constructor
    · -- A region whose exit is not the target shows what was chosen.
      have hregion := TryCatch.advance_inj (h.region ⟨step, row, .execution, rootPath, none⟩
        ⟨.body, step.key, target ++ "'", []⟩
        ⟨⟨.body, 0, .notRun, .notRun, .notRun, none, none, none, none, false⟩, step.key⟩)
      cases hselected : selectedNextStepKey graph step.key (some output) with
      | some selected =>
        rw [hselected, Option.getD_some] at hregion
        rw [hregion]
      | none =>
        rw [hselected] at hregion
        exact absurd (congrArg String.length hregion) (by simp)
    · -- So does an execution in which the step is stored with its output.
      let stored := { row with outputJson := some (p.sanitizePersisted output) }
      let current : LoadedExecution := ⟨newExecution "" "" "" "" .running 0, [stored]⟩
      have hrow : Runner.rootRow current step.key = some stored := by
        simp [Runner.rootRow, current, stored, row, newStep]
      have hroot := Runner.leaveDone_eq_leave_iff.mp (h.root current stored hrow rfl)
      rwa [hrow] at hroot
  · rintro ⟨hraw, hstored⟩
    refine ⟨fun current row hrow houtput => ?_, fun _ => ?_,
      fun _ _ _ _ _ _ => ForEach.stepDone_eq htype hraw, fun _ _ _ _ => ?_, fun _ _ _ => ?_⟩
    · rw [Runner.leaveDone_eq_leave_iff, hrow, Option.bind_some, houtput]
      exact hstored
    · rw [Runner.subworkflowDone, hraw]
    · rw [ForEach.subworkflowDone, hraw, Option.getD_some]
    · rw [TryCatch.stepDone, hraw, Option.getD_some]

/-! ### A transformation that chooses its successor -/

/-- Three transformations one after the other. -/
def chainSteps : List GraphStepLike :=
  [⟨none, "shape", .transform, .obj []⟩, ⟨none, "review", .transform, .obj []⟩,
    ⟨none, "pay", .transform, .obj []⟩]

def chainGraphJson : Json :=
  .obj [("entryStepKey", .str "shape"),
    ("edges", .arr [storedEdge "shape" "review" .next, storedEdge "review" "pay" .next])]

/-- The graph as the worker reads it. -/
def chainGraph : RuntimeGraph where
  entryStepKey := "shape"
  edges := [⟨"shape", "review", .next, none, none⟩, ⟨"review", "pay", .next, none, none⟩]
  terminalStepKeys := none

/-- The step as the engine runs it. -/
def shapeStep : StepDefinition where
  key := "shape"
  type := .transform
  position := 1
  config := .obj []
  retryPolicy := none

/-- An output without such properties is followed by the next step. -/
theorem shape_total_followed :
    FollowsNext (trialPlatform (singleStep .transform)) chainGraph shapeStep "review"
      (.obj [("total", .num 3)]) := by
  have hplain : ¬ Steers chainGraph "shape" "review" (.obj [("total", .num 3)]) := by
    rintro (⟨key, hkey, -⟩ | ⟨-, decision, hdecision, -⟩)
    · cases hkey
    · cases hdecision
  exact (follows_next_iff rfl rfl _).mpr ⟨hplain, hplain⟩

/-- The output of the first transformation takes the workflow past the second, at every level. -/
theorem shape_skips_review :
    validateGraphV2 .integers chainSteps (some chainGraphJson) = [] ∧
      parseRuntimeGraph .integers
        (.obj [("workflowDefinitionSchemaVersion", .num 2), ("graph", chainGraphJson)]) =
          some chainGraph ∧
      Runner.isControlStep shapeStep.type = false ∧ nextTarget chainGraph "shape" = some "review" ∧
      (∀ current row, Runner.rootRow current "shape" = some row →
        row.outputJson = some (.obj [("nextStepKey", .str "pay")]) →
        Runner.leaveDone chainGraph current shapeStep = Runner.leave current "shape" (some "pay")) ∧
      (∀ p executionId input config executionPath cursor status,
        ForEach.stepDone p executionId chainGraph input config executionPath shapeStep cursor
            (some (.obj [("nextStepKey", .str "pay")])) status =
          ForEach.advance input config
            { cursor with lastOutput := some (.obj [("nextStepKey", .str "pay")]), lastStatus := status }
            "pay") ∧
      ∀ input region cursor,
        TryCatch.stepDone chainGraph input region shapeStep cursor
            (some (.obj [("nextStepKey", .str "pay")])) =
          TryCatch.advance input region cursor "pay" := by
  have hselected : selectedNextStepKey chainGraph "shape"
      (some (.obj [("nextStepKey", .str "pay")])) = some "pay" :=
    selectedNextStepKey_explicit rfl (by decide) _ _
  refine ⟨by decide +kernel, rfl, rfl, rfl, fun current row hrow houtput => ?_,
    fun _ _ _ _ _ _ _ => ForEach.stepDone_eq rfl hselected, fun input region cursor => ?_⟩
  · refine Runner.leaveDone_eq_leave_iff.mpr ?_
    rw [show shapeStep.key = "shape" from rfl, hrow, Option.bind_some, houtput, hselected]
  · rw [TryCatch.stepDone, show shapeStep.key = "shape" from rfl, hselected, Option.getD_some]

end Flowmind
