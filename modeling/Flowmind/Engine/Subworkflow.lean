import Flowmind.Engine.Services

/-!
# Executing another workflow

A subworkflow step starts a child execution and waits for it: every time the parent is run, the
service looks at the newest child of the step, and completes or fails the step, waits on, or starts
a child.
-/

namespace Flowmind

open Program Eng

namespace Subworkflow

/-- The limits. -/
def maxDepth : ℕ := 8
def maxChildrenPerRoot : ℕ := 1000
def recheckMilliseconds : ℕ := 2000

/-- The configuration in normal form. -/
structure Config where
  workflowId : String
  versionPolicy : String
  workflowVersionId : Option String
  timeoutSeconds : ℕ

def normalizeConfig (js : JsLib) (value : Json) : Except Failure Config :=
  let workflowId := ((Json.asString? (value.get? "workflowId")).map jsTrim).getD ""
  let versionPolicy := (Json.asString? (value.get? "versionPolicy")).filter fun policy =>
    Decidable.decide (policy = "PINNED_VERSION" ∨ policy = "PUBLISHED")
  let workflowVersionId := (Json.asString? (value.get? "workflowVersionId")).map jsTrim
  let timeoutSeconds := match value.get? "timeoutSeconds" with
    | none => some 120
    | some v => v.toNumber js
  match value, versionPolicy with
  | .obj _, some versionPolicy =>
    if workflowId = "" then .error (.other "EXECUTE_WORKFLOW workflowId is required" none)
    else if versionPolicy = "PINNED_VERSION" ∧ workflowVersionId.getD "" = "" then
      .error (.other "EXECUTE_WORKFLOW workflowVersionId is required for PINNED_VERSION" none)
    else if integerBetween 1 120 timeoutSeconds then
      .ok { workflowId, versionPolicy, workflowVersionId
            timeoutSeconds := (timeoutSeconds.getD 0).num.toNat }
    else .error (.other "EXECUTE_WORKFLOW timeoutSeconds must be between 1 and 120" none)
  | .obj _, none =>
    if workflowId = "" then .error (.other "EXECUTE_WORKFLOW workflowId is required" none)
    else .error (.other "EXECUTE_WORKFLOW versionPolicy is invalid" none)
  | _, _ => .error (.other "EXECUTE_WORKFLOW config must be an object" none)

/-- Look again later. -/
def wait (row : StepRow) : Eng ServiceOutcome := do
  let t ← now
  let _ ← writeStep row (.childWait (t + recheckMilliseconds))
  pure (.waiting (some (t + recheckMilliseconds)) none)

/-- The step fails for good. -/
def fail (row : StepRow) (code message : String) : Eng ServiceOutcome := do
  let t ← now
  let _ ← writeStep row (.childFail ⟨message, .nonRetryable, some code⟩ t)
  throw (.other message none)

/-- The output of a step whose child is completed. -/
def result (child : ExecutionRow) (output : Json) : Json :=
  .obj [("output", output), ("childExecutionId", .str child.id),
    ("workflowId", .str child.workflowId),
    ("workflowVersionId", (child.workflowVersionId.map Json.str).getD .null),
    ("status", .str "COMPLETED"),
    ("durationMs", match child.startedAt, child.completedAt with
      | some startedAt, some completedAt => .num ((completedAt : ℚ) - startedAt)
      | _, _ => .null),
    ("depth", .num child.depth)]

/-- The workflows of an execution and its ancestors. -/
def ancestry (p : Platform) (executionId : String) : Eng (List String) :=
  Prog.loop (exhausted .ancestry)
    (fun (next : String × List String) => do
      let row ← findExecution next.1
      match row with
      | none => pure (.inr next.2)
      | some row =>
        let ids := setAdd next.2 row.workflowId
        match row.parentExecutionId with
        | none => pure (.inr ids)
        | some parent => pure (.inl (parent, ids)))
    p.fuel (executionId, [])

/-- The child execution as it is created. -/
def newChild (parent : ExecutionRow) (row : StepRow) (id : String) (config : Config)
    (target : SubworkflowTarget) (createdAt : ℕ) : ExecutionRow :=
  { newExecution id parent.organizationId config.workflowId target.id .queued createdAt with
    executionMode := parent.executionMode
    parentExecutionId := some parent.id
    parentStepExecutionId := some row.id
    rootExecutionId := some (parent.rootExecutionId.getD parent.id)
    depth := parent.depth + 1 }

/-- Start a child, unless a limit forbids it. -/
def start (p : Platform) (executionId : String) (step : StepDefinition) (row : StepRow) (raw : Json)
    (config : Config) : Eng ServiceOutcome := do
  let parent? ← findExecution executionId
  match parent? with
  | none => throw (.other "No Execution found" none)
  | some parent =>
    if maxDepth < parent.depth + 1 then
      fail row "DEPTH_LIMIT" "Subworkflow depth limit exceeded"
    else
      let ids ← ancestry p parent.id
      if config.workflowId ∈ ids then
        fail row "RECURSION" "Subworkflow recursion detected"
      else
        let count ← countChildren (parent.rootExecutionId.getD parent.id)
        if maxChildrenPerRoot ≤ count then
          fail row "CHILD_LIMIT" "Subworkflow child execution limit exceeded"
        else
          let target ← resolveTarget config.workflowId config.versionPolicy
            config.workflowVersionId
          if !target.invocable then
            fail row "INVALID_ENTRYPOINT" "Target workflow is not invocable"
          else
            let _ ← Prog.ofExcept (p.assertSubworkflowJson ((raw.get? "input").getD .null))
            let childId ← freshId
            let t ← now
            startChild row (.childStart (row.attemptCount + 1) (step.policy p.js).maxAttempts
                (row.startedAt.getD t) (t + recheckMilliseconds) config.workflowId
                config.versionPolicy)
              (newChild parent row childId config target t)
            enqueue (.dispatch childId)
            wait row

/-- Run a subworkflow step. -/
def execute (p : Platform) (executionId : String) (context : ContextId) (step : StepDefinition)
    (row : StepRow) : Eng ServiceOutcome := do
  let raw ← resolveConfig context row step
  let config ← Prog.ofExcept (normalizeConfig p.js raw)
  let child? ← latestChild row.id
  match child? with
  | none => start p executionId step row raw config
  | some child =>
    match child.status with
    | .pending | .queued | .running | .retrying =>
      let t ← now
      if child.createdAt + config.timeoutSeconds * 1000 ≤ t then
        cancelChild child.id t
        if (step.policy p.js).maxAttempts ≤ row.attemptCount then
          fail row "TIMEOUT" "Subworkflow execution timed out"
        else wait row
      else wait row
    | .completed =>
      let output ← Prog.ofExcept (p.assertSubworkflowJson (child.outputJson.getD .null))
      let t ← now
      let _ ← writeStep row (.childComplete (result child output) t)
      pure (.completed (result child output))
    | .failed =>
      if (step.policy p.js).maxAttempts ≤ row.attemptCount then
        fail row "FAILED" "Subworkflow execution failed"
      else start p executionId step row raw config
    | .cancelled =>
      if (step.policy p.js).maxAttempts ≤ row.attemptCount then
        fail row "CANCELLED" "Subworkflow execution was cancelled"
      else start p executionId step row raw config

end Subworkflow

end Flowmind
