import Flowmind.Context.Runner
import Flowmind.Context.TryBlock
import Flowmind.Graph.Regions
import Flowmind.System.World

/-!
# References to earlier steps

An expression may refer to the steps that are available where it stands (`availableStepKeys`).  When
the configuration of a step is resolved, it sees the results in one context.

* `OnPath` — the paths whose steps come before those of a path: its own, those around it, and the
  bodies of try blocks next to it.
* `ReferencesLive` — a job about to resolve a configuration has in its context the results of all
  available steps that are done on the path taken.
* `references_live_of_local` — so it is if these steps are done in a path of that context, and the
  context has not lost them.
-/

namespace Flowmind

open Program

/-- The steps that the expressions of a step may refer to. -/
def WorkflowDefinition.availableStepKeys (definition : WorkflowDefinition) (stepKey : String) :
    List String :=
  Flowmind.availableStepKeys
    ((definition.steps.rows.filter fun step => decide (0 < step.position)).map fun step =>
      ⟨none, step.key, step.type, step.config⟩)
    (definition.json.get? "graph") stepKey

/-- The paths whose steps come before those of a path. -/
inductive OnPath (executionPath : String) : String → Prop where
  | own : OnPath executionPath executionPath
  /-- Around an iteration. -/
  | loop {path stepKey : String} {index : ℕ}
      (inner : OnPath executionPath (iterationPath path stepKey index)) :
      OnPath executionPath path
  /-- Around a region of a try block. -/
  | region {path stepKey name : String} (inner : OnPath executionPath (regionPath path stepKey name)) :
      OnPath executionPath path
  /-- The body of a try block. -/
  | body {path : String} (outer : OnPath executionPath path) (stepKey : String) :
      OnPath executionPath (regionPath path stepKey "body")

/-- The steps a run has found done, or has finished, with their paths. -/
def finishedSteps (log : List (Sigma Answer)) : List (String × String) :=
  log.flatMap fun answered =>
    match answered.1 with
    | .setSteps _ executionPath steps => steps.map fun step => (executionPath, step.1)
    | .writeStep row write => if write.finishes then [(row.id.executionPath, row.id.stepKey)] else []
    | _ => []

/-- The context and the step execution whose configuration the job is about to resolve. -/
def ActiveJob.resolving (active : ActiveJob) : Option (ContextId × StepRow) :=
  match active.program with
  | Prog.ask statement _ => statement.resolves
  | _ => none

/-- The job is about to resolve a configuration, in a context, that may refer to a step which is
done. -/
inductive Refers (p : Platform) (active : ActiveJob) (context : ContextId) (key : String) : Prop where
  | intro {row : StepRow} {path : String} (resolving : active.resolving = some (context, row))
      (available : key ∈ (p.definition active.job.executionId).availableStepKeys row.id.stepKey)
      (onPath : OnPath row.id.executionPath path)
      (finished : (path, key) ∈ finishedSteps active.log)

/-- The contexts of a worker that has begun with a job. -/
def ActiveJob.contexts (active : ActiveJob) : Contexts :=
  Contexts.after (fun _ _ => none) active.log

/-- The same with what should be in them. -/
def ActiveJob.frames (active : ActiveJob) : FrameView :=
  active.log.foldl (fun v answered => v.next answered.1) FrameView.initial

/-- Every result that may be referred to is in the context. -/
def ReferencesLive (p : Platform) (active : ActiveJob) : Prop :=
  ∀ context key, Refers p active context key → active.contexts context key ≠ none

/-- The steps that may be referred to are done in a path whose results the context has taken, and
not lost to another path since. -/
def ReferencesLocal (p : Platform) (active : ActiveJob) : Prop :=
  ∀ context key, Refers p active context key →
    ∃ path, active.frames.owner path = some context ∧ key ∈ active.frames.kept path

lemma FrameView.contexts_next (v : FrameView) (statement : Statement) :
    (v.next statement).contexts = v.contexts.next statement := by
  cases statement with
  | writeStep row write =>
    simp only [FrameView.next]
    split <;> rfl
  | _ => rfl

lemma ActiveJob.contexts_frames (active : ActiveJob) : active.frames.contexts = active.contexts := by
  unfold ActiveJob.frames ActiveJob.contexts
  induction active.log using List.reverseRecOn with
  | nil => rfl
  | append_singleton log answered ih =>
    rw [List.foldl_append, Contexts.after_snoc, ← ih]
    exact FrameView.contexts_next _ _

/-- **References to steps that are done in the paths of their context are live**, in every state of
every run. -/
theorem references_live_of_local {p : Platform} {events : List Event} {w : World}
    (hrun : Run (WorldStep p) World.initial events w) {worker : String} {active : ActiveJob}
    (hactive : w.jobs worker = some active) (hlocal : ReferencesLocal p active) :
    ReferencesLive p active := by
  intro context key hrefers
  obtain ⟨path, howner, hkept⟩ := hlocal context key hrefers
  obtain ⟨hresolving, -, -, -⟩ := hrefers
  have hmeets := ((WorldRun.valid hrun).jobs hactive).meets (meets_run p active.job.executionId)
    fun hperform => answersFor_perform hperform
  rw [← active.contexts_frames]
  unfold ActiveJob.resolving at hresolving
  split at hresolving
  case h_1 hprogram =>
    rw [hprogram] at hmeets
    exact hmeets.1.1 context _ hresolving path howner key hkept
  case h_2 => cases hresolving

/-! ### References to the order -/

/-- An order is loaded and sent, without a graph. -/
def sendWorkflow : WorkflowDefinition where
  json := .obj []
  steps := ⟨[⟨"load", .transform, 1, .obj [], none⟩, ⟨"send", .transform, 2, .obj [], none⟩], by decide⟩

/-- Where the order is sent, it is in the context. -/
theorem order_live_when_sent :
    ∃ events w active,
      Run (WorldStep (trialPlatform sendWorkflow)) World.initial events w ∧
        w.jobs "a" = some active ∧ Refers (trialPlatform sendWorkflow) active .execution "load" ∧
        active.contexts .execution "load" ≠ none := by
  have hscript : (script (World.act (trialPlatform sendWorkflow)) World.initial
      (trialStart "a" ++ statements "a" 31)).any (fun done =>
        ∃ active ∈ done.2.jobs "a", active.job.executionId = "run" ∧
          (∃ resolving ∈ active.resolving, resolving.1 = .execution ∧
            resolving.2.id = ⟨"run", "send", rootPath⟩) ∧
          (rootPath, "load") ∈ finishedSteps active.log ∧
          active.frames.owner rootPath = some .execution ∧
          ∀ step ∈ finishedSteps active.log, step.2 ∈ active.frames.kept rootPath) := by
    decide +kernel
  obtain ⟨events, w, hrun, active, hactive, hjob, ⟨⟨context, row⟩, hresolving, rfl, hid⟩, hfinished,
    howner, hkept⟩ := World.exists_run hscript
  have hrefers : Refers (trialPlatform sendWorkflow) active .execution "load" := by
    refine ⟨hresolving, ?_, hid ▸ .own, hfinished⟩
    rw [hid, hjob]
    decide +kernel
  have hlocal : ReferencesLocal (trialPlatform sendWorkflow) active := by
    rintro context' key ⟨hresolving', -, -, hfinished'⟩
    rw [hresolving] at hresolving'
    cases hresolving'
    exact ⟨rootPath, howner, hkept _ hfinished'⟩
  exact ⟨events, w, active, hrun, hactive, hrefers,
    references_live_of_local hrun hactive hlocal _ _ hrefers⟩

/-- In the body of the try block the order that was loaded before it is not in the context. -/
theorem order_not_live_in_try_body :
    validateGraphV2 .integers chargeSteps (some chargeGraphJson) = [] ∧
      parseRuntimeGraph .integers chargeWorkflow.json = some chargeGraph ∧
      "load" ∈ availableStepKeys chargeSteps (some chargeGraphJson) "charge" ∧
      ∃ events w active,
        Run (WorldStep (trialPlatform chargeWorkflow)) World.initial events w ∧
          w.jobs "a" = some active ∧ Refers (trialPlatform chargeWorkflow) active .execution "load" ∧
          active.contexts .execution "load" = none := by
  have hscript : (script (World.act (trialPlatform chargeWorkflow)) World.initial
      (trialStart "a" ++ statements "a" 41)).any (fun done =>
        ∃ active ∈ done.2.jobs "a", active.job.executionId = "run" ∧
          (∃ resolving ∈ active.resolving, resolving.1 = .execution ∧
            resolving.2.id = ⟨"run", "charge", regionPath rootPath "guard" "body"⟩) ∧
          (rootPath, "load") ∈ finishedSteps active.log ∧
          active.contexts .execution "load" = none) := by
    decide +kernel
  obtain ⟨events, w, hrun, active, hactive, hjob, ⟨⟨context, row⟩, hresolving, rfl, hid⟩, hfinished,
    hnone⟩ := World.exists_run hscript
  refine ⟨by decide +kernel, rfl, by decide +kernel, events, w, active, hrun, hactive,
    ⟨hresolving, ?_, ?_, hfinished⟩, hnone⟩
  · rw [hid, hjob]
    decide +kernel
  · rw [hid]
    exact .region .own

end Flowmind
