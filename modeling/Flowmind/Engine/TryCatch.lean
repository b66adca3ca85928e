import Flowmind.Engine.ForEach

/-!
# Try blocks

A try block runs its body; if that fails it runs its catch region, and in any case its finally
region, if it has one.  The phase it is in is stored in its row.  As for a loop, an error that
leaves a phase carries the state with it.
-/

namespace Flowmind

open Program Eng

namespace TryCatch

/-- The names of the regions. -/
inductive RegionName where
  | body | catch | finally
deriving DecidableEq, Repr

def RegionName.name : RegionName → String
  | .body => "body"
  | .catch => "catch"
  | .finally => "finally"

/-- A region to run. -/
structure Region where
  name : RegionName
  entry : String
  exit : String
  keys : List String

/-- How a region ends. -/
inductive RegionResult where
  | completed
  | waiting (nextRetryAt : Option ℕ) (waitReason : Option WaitReason)

def readState : StepInput → Option TryState
  | .tryState state => some state
  | _ => none

def RegionStatus.json : RegionStatus → Json
  | .notRun => .str "not_run"
  | .succeeded => .str "succeeded"
  | .failed => .str "failed"

def ErrorCategory.json : ErrorCategory → Json
  | .retryable => .str "retryable"
  | .nonRetryable => .str "non_retryable"
  | .ambiguous => .str "ambiguous"
  | .unknown => .str "unknown"

/-- The output of a try block; `failed` overrides its status. -/
def summary (state : TryState) (failed : Bool := false) : Json :=
  let status := if failed || decide (state.phase = .failed) then "failed"
    else if state.handled then "handled" else "succeeded"
  .obj ([("status", .str status), ("bodyStatus", RegionStatus.json state.bodyStatus),
      ("catchStatus", RegionStatus.json state.catchStatus),
      ("finallyStatus", RegionStatus.json state.finallyStatus),
      ("errorHandled", .bool state.handled)] ++
    (state.primary.map fun primary =>
      (if primary.error.stepKey = "" then []
        else [("failedStepKey", Json.str primary.error.stepKey)]) ++
        [("errorCategory", ErrorCategory.json primary.error.category)]).getD [])

/-- The state of a try block that has not begun. -/
def initialState (startedAt : ℕ) : TryState where
  phase := .body
  startedAt := startedAt
  bodyStatus := .notRun
  catchStatus := .notRun
  finallyStatus := .notRun
  currentStepKey := none
  primary := none
  originalPrimary := none
  secondary := none
  handled := false

/-- A missing edge is read anyway. -/
def undefinedTarget : Failure := .other "Cannot read properties of undefined (reading 'to')" none

variable (p : Platform) (executionId : String) (graph : RuntimeGraph)
  (forEach : ForEachInput → Eng ServiceOutcome) (input : TryInput)

/-! ## Failures -/

/-- The failure a row records. -/
def failureFromRow (id : StepId) : Eng PrimaryFailure := do
  let found ← getStep id
  match found with
  | none => throw (.other "No StepExecution found" none)
  | some row => pure { id := row.id, error := safeError p row }

/-- The failed step an error comes from: the given row, or else the one that failed last. -/
def asFailure (failure : Failure) (id : Option StepId) : Eng PrimaryFailure :=
  match failure, id with
  | .structured error stepExecutionId, _ => pure { id := stepExecutionId, error := error }
  | _, some id => failureFromRow p id
  | _, none => do
    let found ← findFailed true
    match found with
    | none => throw failure
    | some row => failureFromRow p row.id

/-- Throw an error as that of a step. -/
def throwFailure {α : Type} (failure : Failure) (id : Option StepId) : Eng α := do
  let structured ← asFailure p failure id
  throw (.structured structured.error structured.id)

/-! ## Regions -/

/-- Store the state. -/
def checkpoint (state : TryState) : Eng Unit := do
  let _ ← writeStep input.row (.tryCheckpoint state (summary state))
  pure ()

/-- Where a region is. -/
structure Cursor where
  state : TryState
  next : String

variable (region : Region)

/-- Go on to another step of the region. -/
def advance (cursor : Cursor) (next : String) : Eng (Cursor ⊕ RegionResult) := do
  let state := { cursor.state with
    currentStepKey := if next = region.exit then none else some next }
  checkpoint input state
  pure (.inl { state, next })

/-- Stop at the current step, to continue there later. -/
def suspend (cursor : Cursor) (nextRetryAt : Option ℕ) (waitReason : Option WaitReason) :
    Eng (Cursor ⊕ RegionResult) := do
  checkpoint input { cursor.state with currentStepKey := some cursor.next }
  pure (.inr (.waiting nextRetryAt waitReason))

/-- The state a replay takes over into a control step of a region. -/
def adjustReplay (replay : ExecutionRow) : StepInput → StepInput
  | .forEachState state => .forEachState (resumeLoop replay state)
  | value => value

def hydrateControl (row : StepRow) : Eng StepRow := do
  let replay ← findExecution executionId
  match replay with
  | none => pure row
  | some replay => hydrate replay row adjustReplay

/-- The row of a step of a region; that of a control step may be taken over from a replay. -/
def regionRow (executionPath : String) (step : StepDefinition) : Eng StepRow := do
  let row ← ensure p executionId step executionPath input.iterationIndex
  if step.type = .forEach ∨ step.type = .tryCatch then hydrateControl executionId row
  else pure row

variable (context : ContextId)

/-- A loop in a region. -/
def loopStep (executionPath : String) (step : StepDefinition) (row : StepRow) (cursor : Cursor) :
    Eng (Cursor ⊕ RegionResult) :=
  match graph.target? step.key .forEachBody, graph.target? step.key .forEachDone with
  | some body, some done =>
    if row.status = .completed then do
      setStepResult context step.key .completed row.outputJson
      pure (.inl { cursor with next := done })
    else do
      let result ← forEach
        { step, row, bodyEntry := body, done, bodyKeys := graph.regionKeys body done
          parentPath := executionPath }
      match result with
      | .waiting nextRetryAt waitReason => suspend input cursor nextRetryAt waitReason
      | .completed output =>
        setStepResult context step.key .completed (some output)
        pure (.inl { cursor with next := done })
  | _, _ => throw undefinedTarget

/-- After a step that is done. -/
def stepDone (step : StepDefinition) (cursor : Cursor) (output : Option Json) :
    Eng (Cursor ⊕ RegionResult) :=
  advance input region cursor ((selectedNextStepKey graph step.key output).getD region.exit)

/-- A subworkflow in a region. -/
def subworkflowStep (step : StepDefinition) (row : StepRow) (cursor : Cursor) :
    Eng (Cursor ⊕ RegionResult) := do
  let result ← (Subworkflow.execute p executionId context step row).handle
    fun failure => throwFailure p failure (some row.id)
  match result with
  | .waiting nextRetryAt waitReason => suspend input cursor nextRetryAt waitReason
  | .completed output =>
    setStepResult context step.key .completed (some output)
    stepDone graph input region step cursor (some output)

/-- Any other step. -/
def plainStep (step : StepDefinition) (row : StepRow) (cursor : Cursor) :
    Eng (Cursor ⊕ RegionResult) := do
  let t ← now
  match retryPending row t with
  | some nextRetryAt => suspend input cursor (some nextRetryAt) none
  | none =>
    if row.status = .retrying ∧ isIntentionalWait row then
      let output ← completeWait p row
      setStepResult context step.key .completed (some output)
      stepDone graph input region step cursor (some output)
    else if attemptsExhausted row then
      let failure ← failureFromRow p row.id
      throw (.structured failure.error failure.id)
    else if isDone row.status then
      stepDone graph input region step cursor row.outputJson
    else
      let outcome ← (Flowmind.execute p context step row).handle
        fun failure => throwFailure p failure (some row.id)
      match outcome with
      | .completed result =>
        setStepResult context step.key result.status result.output
        stepDone graph input region step cursor result.output
      | .retrying nextRetryAt => suspend input cursor (some nextRetryAt) none
      | .durableWait => suspend input cursor none (some .approval)

/-- One step of a region. -/
def regionStep (executionPath : String) (cursor : Cursor) : Eng (Cursor ⊕ RegionResult) :=
  if cursor.next = region.exit then pure (.inr .completed)
  else if cursor.next ∉ region.keys then
    throw (.other ("TRY_CATCH " ++ region.name.name ++ " escaped to " ++ cursor.next) none)
  else match stepRow? p executionId cursor.next with
  | none => throw (.other ("Missing step " ++ cursor.next) none)
  | some step =>
    match p.reuse? ⟨executionId, step.key, executionPath⟩ with
    | some reused => do
      setStepResult context step.key reused.status reused.outputJson
      let next := if step.type = .forEach then graph.target? step.key .forEachDone
        else selectedNextStepKey graph step.key reused.outputJson
      advance input region cursor (next.getD region.exit)
    | none => do
      let row ← regionRow p executionId input executionPath step
      if step.type = .forEach then
        loopStep graph forEach input context executionPath step row cursor
      else if step.type = .executeWorkflow then
        subworkflowStep p executionId graph input region context step row cursor
      else plainStep p graph input region context step row cursor

/-- Run a region in a context, whose step results are replaced by those of the region. -/
def runRegion (state : TryState) : Eng RegionResult := do
  let executionPath := regionPath input.parentPath input.step.key region.name.name
  let persisted ← findSteps executionPath
  setSteps context executionPath (doneResults persisted)
  Prog.loop (exhausted .region)
    (regionStep p executionId graph forEach input region context executionPath)
    p.fuel { state, next := state.currentStepKey.getD region.entry }

/-- Run a region and keep its error. -/
def tryRegion (state : TryState) : Eng (RegionResult ⊕ Failure) :=
  ((runRegion p executionId graph forEach input region context state).bind fun result =>
    pure (.inl result)).handle fun failure => pure (.inr failure)

/-! ## Phases -/

/-- A program whose errors carry the state of the try block. -/
abbrev TryEng (α : Type) : Type := Prog Statement Answer (TryState × Failure) α

/-- A call made in a state. -/
def during {α : Type} (state : TryState) (call : Eng α) : TryEng α :=
  call.handle fun failure => .fail (state, failure)

/-- The entries of a try block. -/
structure Entries where
  bodyEntry : String
  catchEntry : String
  finallyEntry : Option String
  done : String

/-- Where a region that is not the last one ends. -/
def Entries.boundary (entries : Entries) : String := entries.finallyEntry.getD entries.done

/-- What a phase leaves for the next one: the state and the failure, or a wait. -/
inductive PhaseResult where
  | next (state : TryState) (primary : Option PrimaryFailure)
  | waiting (nextRetryAt : Option ℕ) (waitReason : Option WaitReason)

variable (entries : Entries)

/-- The next phase. -/
def proceed (state : TryState) (primary : Option PrimaryFailure) : TryEng PhaseResult := do
  during state (checkpoint input state)
  pure (.next state primary)

/-- The body. -/
def bodyPhase (state : TryState) (primary : Option PrimaryFailure) : TryEng PhaseResult :=
  if state.phase ≠ .body then pure (.next state primary)
  else do
    let result ← during state (tryRegion p executionId graph forEach input
      { name := .body, entry := entries.bodyEntry, exit := entries.boundary
        keys := graph.regionKeys entries.bodyEntry entries.boundary } input.parentContext state)
    match result with
    | .inl (.waiting nextRetryAt waitReason) => pure (.waiting nextRetryAt waitReason)
    | .inl .completed =>
      proceed input
        { state with
          bodyStatus := .succeeded
          phase := if entries.finallyEntry.isSome then .finally else .complete
          currentStepKey := none } primary
    | .inr failure =>
      let failed ← during state (asFailure p failure none)
      proceed input
        { state with
          primary := some failed
          originalPrimary := state.originalPrimary.or (some failed)
          bodyStatus := .failed, phase := .catch, currentStepKey := none } (some failed)

/-- The catch region. -/
def catchPhase (state : TryState) (primary : Option PrimaryFailure) : TryEng PhaseResult :=
  if state.phase ≠ .catch then pure (.next state primary)
  else match primary with
  | none => .fail (state,
      .other "Cannot read properties of undefined (reading 'safeError')" none)
  | some caught => do
    -- The error frame has no step results of its own.
    let executionPath := regionPath input.parentPath input.step.key RegionName.catch.name
    let errorFrame := ContextId.caught executionPath
    during state (setSteps errorFrame executionPath [])
    let result ← during state (tryRegion p executionId graph forEach input
      { name := .catch, entry := entries.catchEntry, exit := entries.boundary
        keys := graph.regionKeys entries.catchEntry entries.boundary } errorFrame state)
    match result with
    | .inl (.waiting nextRetryAt waitReason) => pure (.waiting nextRetryAt waitReason)
    | .inl .completed =>
      let state := { state with
        catchStatus := .succeeded, handled := true
        phase := if entries.finallyEntry.isSome then .finally else .complete
        currentStepKey := none }
      during state (markHandled caught.id)
      proceed input state (some caught)
    | .inr failure =>
      let state := { state with originalPrimary := state.originalPrimary.or state.primary }
      let failed ← during state (asFailure p failure none)
      proceed input
        { state with
          primary := some failed, catchStatus := .failed
          phase := if entries.finallyEntry.isSome then .finally else .failed
          currentStepKey := none } (some failed)

/-- The finally region. -/
def finallyPhase (state : TryState) (primary : Option PrimaryFailure) : TryEng PhaseResult :=
  match entries.finallyEntry with
  | none => pure (.next state primary)
  | some entry =>
    if state.phase ≠ .finally then pure (.next state primary)
    else do
      let result ← during state (tryRegion p executionId graph forEach input
        { name := .finally, entry, exit := entries.done
          keys := graph.regionKeys entry entries.done } input.parentContext state)
      match result with
      | .inl (.waiting nextRetryAt waitReason) => pure (.waiting nextRetryAt waitReason)
      | .inl .completed =>
        proceed input
          { state with
            finallyStatus := .succeeded
            phase := if primary.isSome && !state.handled then .failed else .complete
            currentStepKey := none } primary
      | .inr failure =>
        let failed ← during state (asFailure p failure none)
        proceed input
          { state with
            finallyStatus := .failed
            secondary := primary.map fun _ => failed.error
            primary := state.primary.or (primary.or (some failed))
            phase := .failed, currentStepKey := none } (primary.or (some failed))

/-- The end of a try block. -/
def finish (state : TryState) (primary : Option PrimaryFailure) : TryEng ServiceOutcome :=
  if state.phase = .failed then
    match primary with
    | some failed => .fail (state, .structured failed.error failed.id)
    | none => .fail (state, .other "undefined" none)
  else do
    let completedAt ← during state now
    let _ ← during state (writeStep input.row (.tryComplete (summary state) completedAt))
    pure (.completed (summary state))

/-- All phases, one after the other. -/
def runPhases (state : TryState) (primary : Option PrimaryFailure) : TryEng ServiceOutcome := do
  let afterBody ← bodyPhase p executionId graph forEach input entries state primary
  match afterBody with
  | .waiting nextRetryAt waitReason => pure (.waiting nextRetryAt waitReason)
  | .next state primary =>
    let afterCatch ← catchPhase p executionId graph forEach input entries state primary
    match afterCatch with
    | .waiting nextRetryAt waitReason => pure (.waiting nextRetryAt waitReason)
    | .next state primary =>
      let afterFinally ← finallyPhase p executionId graph forEach input entries state primary
      match afterFinally with
      | .waiting nextRetryAt waitReason => pure (.waiting nextRetryAt waitReason)
      | .next state primary => finish input state primary

/-- The try block fails with the error of a step. -/
def failTry (state : TryState) (failure : Failure) : Eng ServiceOutcome := do
  let failed ← asFailure p failure none
  let completedAt ← now
  let _ ← writeStep input.row (.tryFail (summary state true)
    ⟨failed.error.message, failed.error.category, failed.error.code⟩ completedAt)
  throw (.structured failed.error failed.id)

/-- The state a run of the try block begins with: the stored one if there is one. -/
def startState : Eng TryState :=
  match readState input.row.inputJson with
  | some state => pure state
  | none => do
    let startedAt ← now
    let _ ← writeStep input.row (.tryStart (initialState startedAt))
    pure (initialState startedAt)

/-- The entries in the graph. -/
def entries? (stepKey : String) : Option Entries :=
  match graph.target? stepKey .tryBody, graph.target? stepKey .tryCatch,
    graph.target? stepKey .tryDone with
  | some bodyEntry, some catchEntry, some done =>
    some { bodyEntry, catchEntry, finallyEntry := graph.target? stepKey .tryFinally, done }
  | _, _, _ => none

/-- Run a try block, from its stored state if there is one. -/
def execute : Eng ServiceOutcome :=
  match entries? graph input.step.key with
  | none => throw undefinedTarget
  | some entries => do
    let state ← startState input
    let primary := if state.phase = .catch then state.originalPrimary.or state.primary
      else state.primary
    (runPhases p executionId graph forEach input entries state primary).handle
      fun (state, failure) => failTry p input state failure

end TryCatch

/-! ## All services -/

/-- The services that call each other. -/
structure Services where
  forEach : ForEachInput → Eng ServiceOutcome
  tryCatch : TryInput → Eng ServiceOutcome

/-- The services, nested to a depth. -/
def services (p : Platform) (executionId : String) (graph : RuntimeGraph) : ℕ → Services
  | 0 => ⟨fun _ => exhausted .nesting, fun _ => exhausted .nesting⟩
  | depth + 1 =>
    ⟨ForEach.execute p executionId graph (services p executionId graph depth).tryCatch,
      TryCatch.execute p executionId graph (services p executionId graph depth).forEach⟩

end Flowmind
