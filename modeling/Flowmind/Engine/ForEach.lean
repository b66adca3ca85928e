import Flowmind.Engine.Subworkflow

/-!
# Loops

A loop runs its body once for each item of its source, one after the other.  Its state is stored in
its row after every step of the body, so that a later run of the execution continues where this one
stops.

The state is a mutable object in the source, and the handler of an error sees it as it was when the
error was thrown; here an error that leaves the body carries the state with it.
-/

namespace Flowmind

open Program Eng

namespace ForEach

/-- The limits. -/
def maxItems : ℕ := 1000
def maxErrors : ℕ := 20
def maxSourceBytes : ℕ := 1048576

/-- The configuration in normal form. -/
structure Config where
  continueOnError : Bool
  maxItems : ℤ
  collectResults : Bool
  maxResults : ℤ

/-- `Number(value)` if that is an integer. -/
def integer (js : JsLib) (value : Option Json) (fallback : ℤ) : ℤ :=
  match value.bind (·.toNumber js) with
  | some q => if q.den = 1 then q.num else fallback
  | none => fallback

def normalizeConfig (js : JsLib) (config : Json) : Config where
  continueOnError := Json.strictEq false (config.get? "continueOnError") (some (.bool true))
  maxItems := integer js (config.get? "maxItems") 100
  collectResults := !Json.strictEq false (config.get? "collectResults") (some (.bool false))
  maxResults := integer js (config.get? "maxResults") 20

/-- The output of a loop. -/
def summary (config : Config) (state : LoopState) : Json :=
  .obj (([("total", .num state.items.length), ("succeeded", .num state.succeeded),
      ("failed", .num state.failed), ("skipped", .num state.skipped),
      ("mode", .str "SEQUENTIAL")] : List (String × Json)) ++
    (if config.collectResults then
      [("results", .arr state.results), ("resultsTruncated", .bool state.resultsTruncated)]
    else [] : List (String × Json)) ++
    (if state.errors.isEmpty then []
    else
      [("errors", .arr (state.errors.map fun error =>
          .obj (([("iterationIndex", .num error.iterationIndex), ("stepKey", .str error.stepKey)] :
              List (String × Json)) ++
            (error.code.map fun code => ("code", Json.str code)).toList ++
            ([("message", .str error.message)] : List (String × Json))))),
        ("errorsTruncated", .bool state.errorsTruncated)] : List (String × Json)))

/-- The state of a loop that has not begun. -/
def emptyState (items : List Json) (startedAt : ℕ) : LoopState where
  items := items
  nextIndex := 0
  currentStepKey := none
  succeeded := 0
  failed := 0
  skipped := 0
  results := []
  errors := []
  resultsTruncated := false
  errorsTruncated := false
  startedAt := startedAt

def readState : StepInput → Option LoopState
  | .forEachState state => some state
  | _ => none

/-- A program whose errors carry the state of the loop. -/
abbrev LoopEng (α : Type) : Type := Prog Statement Answer (LoopState × Failure) α

/-- A call made in a state. -/
def during {α : Type} (state : LoopState) (call : Eng α) : LoopEng α :=
  call.handle fun failure => .fail (state, failure)

/-- Where a run of the body is. -/
structure Cursor where
  state : LoopState
  next : String
  lastOutput : Option Json
  lastStatus : StepExecutionStatus

/-- How a run of the body ends. -/
inductive BodyExit where
  | finished (cursor : Cursor)
  | waiting (nextRetryAt : Option ℕ) (waitReason : Option WaitReason)

variable (p : Platform) (executionId : String) (graph : RuntimeGraph)
  (tryCatch : TryInput → Eng ServiceOutcome) (input : ForEachInput) (config : Config)

/-- Store the state. -/
def checkpoint (state : LoopState) : LoopEng Unit := do
  let _ ← during state (writeStep input.row (.loopCheckpoint state (summary config state)))
  pure ()

variable (cursor : Cursor)

/-- Go on to another step of the body. -/
def advance (next : String) : LoopEng (Cursor ⊕ BodyExit) := do
  let state := { cursor.state with
    currentStepKey := if next = input.done then none else some next }
  checkpoint input config state
  pure (.inl { cursor with state, next })

/-- Stop at the current step, to continue there later. -/
def suspend (nextRetryAt : Option ℕ) (waitReason : Option WaitReason) :
    LoopEng (Cursor ⊕ BodyExit) := do
  checkpoint input config { cursor.state with currentStepKey := some cursor.next }
  pure (.inr (.waiting nextRetryAt waitReason))

/-- Count a failed iteration. -/
def handleIterationFailure (state : LoopState) (stepKey : String) (failed : StepRow) :
    LoopEng LoopState := do
  let message := (failed.errorJson.map (·.message)).getD "Iteration failed"
  let error : ForEachErrorSummary :=
    { iterationIndex := state.nextIndex, stepKey
      code := failed.errorJson.bind (·.code)
      message := utf16Slice message 500 }
  let counted := { state with failed := state.failed + 1 }
  let state' := if state.errors.length < maxErrors then
      { counted with errors := state.errors ++ [error] }
    else { counted with errorsTruncated := true }
  if config.continueOnError then
    during state' (markHandled failed.id)
  pure state'

/-- The iteration failed: the loop goes on to the next item, or fails as well. -/
def iterationFailed (stepKey : String) (failed : StepRow) (failure : Failure) :
    LoopEng (Cursor ⊕ BodyExit) := do
  let state ← handleIterationFailure config cursor.state stepKey failed
  if config.continueOnError then
    pure (.inr (.finished { cursor with state, next := input.done, lastStatus := .failed }))
  else .fail (state, failure)

variable (executionPath : String)

/-- The steps of the branches that were not selected are skipped. -/
def skipUnselected (iterationIndex : ℕ) (controlKey selected : String) : Eng Unit :=
  Prog.each (fun key =>
    match stepRow? p executionId key with
    | none => pure ()
    | some step => do
      let row ← ensure p executionId step executionPath (some iterationIndex)
      if isDone row.status then pure ()
      else
        skip p row "branch_not_selected"
        setStepResult (.iteration executionPath) key .skipped
          (some (skippedOutput "branch_not_selected")))
    ((branchSkipKeys graph controlKey selected).filter fun key =>
      Decidable.decide (key ∈ input.bodyKeys))

variable (step : StepDefinition)

/-- After a step that is done. -/
def stepDone (cursor : Cursor) (output : Option Json) (status : StepExecutionStatus) :
    LoopEng (Cursor ⊕ BodyExit) :=
  let cursor := { cursor with lastOutput := output, lastStatus := status }
  match selectedNextStepKey graph step.key output with
  | none => .fail (cursor.state,
      .nonRetryable ("FOR_EACH Body cannot resolve next step after " ++ step.key))
  | some selected => do
    if (step.type = .if ∨ step.type = .switch) ∧ selected ≠ input.done then
      during cursor.state (skipUnselected p executionId graph input executionPath
        cursor.state.nextIndex step.key selected)
    advance input config cursor selected

/-- A step that is neither a try block nor a subworkflow. -/
def plainStep (row : StepRow) (cursor : Cursor) : LoopEng (Cursor ⊕ BodyExit) := do
  let t ← during cursor.state now
  match retryPending row t with
  | some nextRetryAt => suspend input config cursor (some nextRetryAt) none
  | none =>
    if row.status = .retrying ∧ isIntentionalWait row then
      let output ← during cursor.state (completeWait p row)
      during cursor.state (setStepResult (.iteration executionPath) step.key .completed
        (some output))
      stepDone p executionId graph input config executionPath step cursor (some output) .completed
    else if attemptsExhausted row then
      iterationFailed input config cursor step.key row
        (.other ("Step " ++ step.key ++ " failed after " ++ toString row.attemptCount ++
          " attempts") none)
    else if isDone row.status then
      stepDone p executionId graph input config executionPath step cursor row.outputJson row.status
    else
      let attempted : Eng (StepOutcome ⊕ Failure) :=
        ((execute p (.iteration executionPath) step row).bind
          fun outcome => pure (.inl outcome)).handle
          fun failure => pure (.inr failure)
      let outcome ← during cursor.state attempted
      match outcome with
      | .inl (.completed result) =>
        during cursor.state (setStepResult (.iteration executionPath) step.key result.status
          result.output)
        stepDone p executionId graph input config executionPath step cursor result.output
          result.status
      | .inl (.retrying nextRetryAt) => suspend input config cursor (some nextRetryAt) none
      | .inl .durableWait => suspend input config cursor none (some .approval)
      | .inr failure =>
        let failed ← during cursor.state (getStep row.id)
        match failed with
        | none => .fail (cursor.state, .other "No StepExecution found" none)
        | some failed => iterationFailed input config cursor step.key failed failure

/-- The state a replay takes over into a control step of the body. -/
def adjustReplay (stepKey : String) (replay : ExecutionRow) : StepInput → StepInput
  | .tryState state =>
    match replay.replayFromExecutionPath.bind (replayRegion · stepKey) with
    | some region => .tryState { state with
        phase := .ofName region
        currentStepKey := replay.replayFromStepKey
        primary := if region = "catch" then state.originalPrimary.or state.primary
          else state.primary }
    | none => .tryState state
  | value => value

def hydrateControl (row : StepRow) : Eng StepRow := do
  let replay ← findExecution executionId
  match replay with
  | none => pure row
  | some replay => hydrate replay row (adjustReplay row.id.stepKey)

/-- The row of a step of the body; that of a control step may be taken over from a replay. -/
def bodyRow (iterationIndex : ℕ) : Eng StepRow := do
  let row ← ensure p executionId step executionPath (some iterationIndex)
  if step.type = .tryCatch ∨ step.type = .forEach then hydrateControl executionId row
  else pure row

/-- A try block in the body. -/
def tryStep (row : StepRow) (cursor : Cursor) : LoopEng (Cursor ⊕ BodyExit) :=
  match graph.target? step.key .tryDone with
  | none => .fail (cursor.state, .nonRetryable "TRY_CATCH Done connection is missing")
  | some done =>
    if row.status = .completed then do
      during cursor.state (setStepResult (.iteration executionPath) step.key .completed
        row.outputJson)
      pure (.inl { cursor with next := done })
    else do
      let result ← during cursor.state (tryCatch
        { step, row, parentContext := .iteration executionPath, parentPath := executionPath
          iterationIndex := some cursor.state.nextIndex })
      match result with
      | .waiting nextRetryAt waitReason => suspend input config cursor nextRetryAt waitReason
      | .completed output =>
        during cursor.state (setStepResult (.iteration executionPath) step.key .completed
          (some output))
        advance input config cursor done

/-- After a subworkflow: where its output leads, else out of the body. -/
def subworkflowDone (cursor : Cursor) (output : Json) : LoopEng (Cursor ⊕ BodyExit) := do
  during cursor.state (setStepResult (.iteration executionPath) step.key .completed (some output))
  advance input config { cursor with lastOutput := some output, lastStatus := .completed }
    ((selectedNextStepKey graph step.key (some output)).getD input.done)

/-- A subworkflow in the body. -/
def subworkflowStep (row : StepRow) (cursor : Cursor) : LoopEng (Cursor ⊕ BodyExit) := do
  let result ← during cursor.state
    (Subworkflow.execute p executionId (.iteration executionPath) step row)
  match result with
  | .waiting nextRetryAt waitReason => suspend input config cursor nextRetryAt waitReason
  | .completed output =>
    subworkflowDone graph input config executionPath step cursor output

/-- One step of the body. -/
def bodyStep (cursor : Cursor) : LoopEng (Cursor ⊕ BodyExit) :=
  if cursor.next = input.done then pure (.inr (.finished cursor))
  else if cursor.next ∉ input.bodyKeys then
    .fail (cursor.state, .nonRetryable ("FOR_EACH Body escaped to " ++ cursor.next))
  else match stepRow? p executionId cursor.next with
  | none =>
    .fail (cursor.state,
      .nonRetryable ("FOR_EACH Body references missing step " ++ cursor.next))
  | some step =>
    match p.reuse? ⟨executionId, step.key, executionPath⟩ with
    | some reused => do
      during cursor.state (setStepResult (.iteration executionPath) step.key reused.status
        reused.outputJson)
      let next := if step.type = .tryCatch then graph.target? step.key .tryDone
        else selectedNextStepKey graph step.key reused.outputJson
      advance input config
        { cursor with lastOutput := reused.outputJson, lastStatus := reused.status }
        (next.getD input.done)
    | none => do
      let row ← during cursor.state
        (bodyRow p executionId executionPath step cursor.state.nextIndex)
      if step.type = .tryCatch then
        tryStep graph tryCatch input config executionPath step row cursor
      else if step.type = .executeWorkflow then
        subworkflowStep p executionId graph input config executionPath step row cursor
      else plainStep p executionId graph input config executionPath step row cursor

/-- Count an iteration that did not fail. -/
def countIteration : LoopState :=
  let state := cursor.state
  if cursor.lastStatus = .failed then state
  else
    let counted := if cursor.lastStatus = .skipped then { state with skipped := state.skipped + 1 }
      else { state with succeeded := state.succeeded + 1 }
    if !config.collectResults then counted
    else if (counted.results.length : ℤ) < config.maxResults then
      { counted with
        results := counted.results ++ [(cursor.lastOutput.map p.limitPreview).getD .null] }
    else { counted with resultsTruncated := true }

/-- One iteration, or the end of the loop. -/
def iteration (state : LoopState) : LoopEng (LoopState ⊕ ServiceOutcome) :=
  if state.nextIndex < state.items.length then do
    let executionPath := iterationPath input.parentPath input.step.key state.nextIndex
    let persisted ← during state (findSteps executionPath)
    during state (setSteps (.iteration executionPath) executionPath (doneResults persisted))
    let cursor : Cursor :=
      { state, next := state.currentStepKey.getD input.bodyEntry
        lastOutput := none, lastStatus := .completed }
    let exit ← Prog.loop (during state (exhausted .body))
      (bodyStep p executionId graph tryCatch input config executionPath) p.fuel cursor
    match exit with
    | .waiting nextRetryAt waitReason => pure (.inr (.waiting nextRetryAt waitReason))
    | .finished cursor =>
      let counted := countIteration p config cursor
      let state := { counted with nextIndex := counted.nextIndex + 1, currentStepKey := none }
      checkpoint input config state
      pure (.inl state)
  else do
    let completedAt ← during state now
    let output := summary config state
    let _ ← during state (writeStep input.row (.loopComplete output completedAt))
    pure (.inr (.completed output))

/-- Read the items and store the first state. -/
def start : LoopEng LoopState := do
  let nothing := emptyState [] 0
  let source ← during nothing (loopSource input.row input.step)
  match source with
  | .arr items =>
    if config.maxItems < items.length ∨ maxItems < items.length then
      .fail (nothing, .nonRetryable "FOR_EACH Source exceeds maxItems")
    else if maxSourceBytes < p.byteLength source then
      .fail (nothing, .nonRetryable "FOR_EACH Source snapshot exceeds the size limit")
    else
      let t ← during nothing now
      let state := emptyState items t
      let _ ← during nothing (writeStep input.row (.loopStart state (summary config state)))
      pure state
  | _ => .fail (nothing, .nonRetryable "FOR_EACH Source must resolve to an array")

/-- The state a run of the loop begins with: the stored one if there is one. -/
def startState : LoopEng LoopState :=
  match readState input.row.inputJson with
  | some state => pure state
  | none => start p input config

/-- The loop fails with its error. -/
def failLoop (state : LoopState) (failure : Failure) : Eng ServiceOutcome := do
  let completedAt ← now
  let _ ← writeStep input.row
    (.loopFail (summary config state) ⟨failure.message, .nonRetryable, none⟩ completedAt)
  throw failure

/-- Run a loop, from its stored state if there is one. -/
def execute : Eng ServiceOutcome :=
  let config := normalizeConfig p.js input.step.config
  let run : LoopEng ServiceOutcome := do
    let state ← startState p input config
    Prog.loop (during state (exhausted .iterations))
      (iteration p executionId graph tryCatch input config) p.fuel state
  run.handle fun (state, failure) => failLoop input config state failure

end ForEach

end Flowmind
