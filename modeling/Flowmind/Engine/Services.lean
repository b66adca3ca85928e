import Flowmind.Engine.StepExecutor
import Flowmind.Graph.RuntimeGraph

/-!
# What the services of the engine share

Loops, try blocks and subworkflows are run by services that call each other: the body of a loop may
contain try blocks and the regions of a try block loops.  A service is given the others as
arguments.
-/

namespace Flowmind

open Eng

/-- How a service returns. -/
inductive ServiceOutcome where
  | completed (output : Json)
  | waiting (nextRetryAt : Option ℕ) (waitReason : Option WaitReason)

/-- What a loop is called with. -/
structure ForEachInput where
  step : StepDefinition
  row : StepRow
  bodyEntry : String
  done : String
  bodyKeys : List String
  parentPath : String

/-- What a try block is called with. -/
structure TryInput where
  step : StepDefinition
  row : StepRow
  parentContext : ContextId
  parentPath : String
  iterationIndex : Option ℕ

/-- The path of an iteration of a loop. -/
def iterationPath (parentPath stepKey : String) (index : ℕ) : String :=
  parentPath ++ "/" ++ stepKey ++ "[" ++ toString index ++ "]"

/-- The path of a region of a try block. -/
def regionPath (parentPath stepKey region : String) : String :=
  parentPath ++ "/try[" ++ stepKey ++ "]/" ++ region

/-- The step of a key; the trigger, at position 0, is none of them. -/
def stepRow? (p : Platform) (executionId key : String) : Option StepDefinition :=
  ((p.definition executionId).steps.get? key).filter fun step => decide (0 < step.position)

/-! ## Taking over the state of a replayed execution -/

/-- What is taken over, once, into a row that has no input yet. -/
def hydrate (replay : ExecutionRow) (target : StepRow)
    (adjust : ExecutionRow → StepInput → StepInput) : Eng StepRow :=
  match replay.replayOfExecutionId with
  | none => pure target
  | some source =>
    if !target.inputJson.isEmpty then pure target
    else do
      let taken ← replaySource ⟨source, target.id.stepKey, target.id.executionPath⟩
      match taken with
      | none => pure target
      | some value => writeStep target (.hydrate (adjust replay value))

/-- The name of the region of the try block in a path, as `path.split(…)[1]?.split("/")[0]`. -/
def replayRegion (path stepKey : String) : Option String :=
  (path.splitOn ("/try[" ++ stepKey ++ "]/"))[1]?.bind fun rest => (rest.splitOn "/").head?

def TryPhase.ofName : String → TryPhase
  | "body" => .body
  | "catch" => .catch
  | "finally" => .finally
  | "complete" => .complete
  | "failed" => .failed
  | name => .other name

/-- A replay that starts inside the loop continues it there. -/
def resumeLoop (replay : ExecutionRow) (state : LoopState) : LoopState :=
  { state with
    nextIndex := replay.replayFromIterationIndex.getD state.nextIndex
    currentStepKey := replay.replayFromStepKey }

/-! ## Errors of a row -/

/-- The error of a failed row, without its secrets. -/
def safeError (p : Platform) (row : StepRow) : SafeStepError :=
  let category := (row.errorJson.map (·.classification)).getD .unknown
  { message := p.safeMessage ((row.errorJson.map (·.message)).getD "Step failed")
    category := category
    code := (row.errorJson.bind (·.code)).map fun code => utf16Slice code 100
    stepKey := row.id.stepKey
    executionPath := row.id.executionPath
    retryable := decide (category = .retryable)
    attempts := row.attemptCount }

end Flowmind
