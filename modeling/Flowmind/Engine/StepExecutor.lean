import Flowmind.Engine.Statement

/-!
# Executing a step

The step executor finds or creates the row of a step (`ensure`), runs an attempt of it (`execute`),
and marks it skipped (`skip`) or a finished wait completed (`completeWait`).

An attempt begins by writing its number into the row; the handler is invoked after that, and what
becomes of it is written by another statement: completed, waiting, to be tried again, or failed.
-/

namespace Flowmind

open Eng

/-- No more rows are created for an execution than this. -/
def maxStepExecutions : ℕ := 10000

/-- The execution path of the main loop. -/
def rootPath : String := "root"

variable (p : Platform)

/-- The row of a step at a path, created if it is not there yet. -/
def ensure (executionId : String) (step : StepDefinition) (executionPath : String)
    (iterationIndex : Option ℕ) : Eng StepRow := do
  let found ← hasStep ⟨executionId, step.key, executionPath⟩
  if !found then
    let count ← countSteps
    if maxStepExecutions ≤ count then
      throw (.other "Execution step limit exceeded" none)
  upsertStep step executionPath iterationIndex (step.policy p.js).maxAttempts

/-! ## An attempt -/

/-- How an attempt ends, unless an error is thrown. -/
inductive StepOutcome where
  | completed (result : StepResult)
  | retrying (nextRetryAt : ℕ)
  | durableWait

variable (step : StepDefinition) (row : StepRow)

/-- The step waits for an approval, so its next attempt continues the last one. -/
def resumesApprovalWait : Bool :=
  decide (step.type = .approval) && decide (row.effectStatus = some .approvalWaiting)

/-- The number of the next attempt. -/
def nextAttempt : ℕ :=
  if resumesApprovalWait step row then row.attemptCount else row.attemptCount + 1

/-- The configuration of these steps is resolved by their handlers. -/
def resolvesOwnConfig : StepType → Bool
  | .transform | .setVariable | .getVariable | .deleteVariable | .incrementVariable
  | .appendVariable => true
  | _ => false

/-- The effect status of a wait. -/
def waitEffect : Option StepWait → EffectStatus
  | some .delay => .delay
  | some .waitUntil => .waitUntil
  | some .approval => .approval
  | none => .waiting

/-- Write the result of a handler. -/
def recordResult (result : StepResult) : Eng StepOutcome := do
  let completedAt ← now
  let output := result.output.map p.sanitizePersisted
  if result.durableWait then
    let _ ← writeStep row (.durableWait output completedAt)
    pure .durableWait
  else
    match result.waitUntil.filter fun t => Decidable.decide (completedAt < t) with
    | some waitUntil =>
      let _ ← writeStep row (.wait output waitUntil (waitEffect result.waitReason) completedAt)
      pure (.retrying waitUntil)
    | none =>
      let _ ← writeStep row (.complete result output completedAt)
      pure (.completed result)

/-- The error of a step whose type nobody handles. -/
def noHandler : Failure :=
  .other ("No handler registered for step type " ++ step.type.name) none

/-- The configuration an attempt runs with. -/
def configFor (context : ContextId) (step : StepDefinition) (row : StepRow) : Eng Json :=
  if resolvesOwnConfig step.type then pure step.config else resolveConfig context row step

/-- From the resolved configuration to the result. -/
def runHandler (context : ContextId) (step : StepDefinition) (row : StepRow) (attempt : ℕ) :
    Eng StepResult := do
  let config ← configFor context step row
  let _ ← writeStep row (.input (p.sanitizePersisted config))
  let decision ← Eng.decide step config
  match decision with
  | .error failure => throw failure
  | .mock result =>
    if hasHandler step.type then pure result
    else throw (noHandler step)
  | .runReal =>
    if hasHandler step.type then invoke context row step attempt config
    else throw (noHandler step)

/-- The attempt failed: it is made again later if the error is retryable and attempts are left. -/
def recordFailure (attempt : ℕ) (failure : Failure) : Eng StepOutcome := do
  let policy := step.policy p.js
  let completedAt ← now
  let canRetry := Decidable.decide (failure.classify = .retryable) &&
    Decidable.decide (attempt < policy.maxAttempts)
  let nextRetryAt := if canRetry then some (policy.nextRetryAt attempt completedAt) else none
  let effect := if failure.classify = .ambiguous then EffectStatus.ambiguous else .failed
  let _ ← writeStep row (.fail (p.sanitizeError failure.serialize) nextRetryAt effect completedAt)
  match nextRetryAt with
  | some t => pure (.retrying t)
  | none => throw failure

/-- Run an attempt of a step in a context. -/
def execute (context : ContextId) (step : StepDefinition) (row : StepRow) : Eng StepOutcome := do
  let startedAt ← now
  let attempt := nextAttempt step row
  let _ ← writeStep row (.start attempt (step.policy p.js).maxAttempts startedAt)
  let attempted : Eng StepOutcome := (runHandler p context step row attempt).bind (recordResult p row)
  attempted.handle (recordFailure p step row attempt)

/-! ## Without an attempt -/

/-- The output of a skipped step. -/
def skippedOutput (reason : String) : Json :=
  .obj [("skipped", .bool true), ("reason", .str reason)]

/-- Mark a step skipped. -/
def skip (p : Platform) (row : StepRow) (reason : String) : Eng Unit := do
  let t ← now
  let _ ← writeStep row (.skip reason (p.sanitizePersisted (skippedOutput reason)) t)
  pure ()

/-- A wait is over: the step is completed with the output it had. -/
def completeWait (p : Platform) (row : StepRow) : Eng Json := do
  let t ← now
  let output := Json.orElse row.outputJson (.obj [("resumed", .bool true)])
  let _ ← writeStep row (.completeWait (p.sanitizePersisted output) t)
  pure output

/-- A suspended step that waits for a time only. -/
def isIntentionalWait : Bool :=
  match row.effectStatus with
  | some .approvalWaiting => false
  | some .delay | some .waitUntil | some .waiting => true
  | _ => (Json.field row.outputJson "waitReason").isSome

/-- The time of a retry or wait has not come. -/
def retryPending (now : ℕ) : Option ℕ :=
  if row.status = .retrying then row.nextRetryAt.filter fun t => Decidable.decide (now < t) else none

/-- The step has failed and has no attempts left. -/
def attemptsExhausted : Bool :=
  Decidable.decide (row.status = .failed) && Decidable.decide (row.maxAttempts ≤ row.attemptCount)

end Flowmind
