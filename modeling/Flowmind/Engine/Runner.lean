import Flowmind.Engine.TryCatch

/-!
# Running an execution

`run` is what a worker does with a job: it takes the lease, loads the execution, and runs its graph
(`runGraph`) or, for definitions without one, its list of steps (`runLinear`).  It ends the
execution, suspends it, or finds that it has lost the lease; other errors fail the execution.
-/

namespace Flowmind

open Program Eng

/-- What a run reports. -/
inductive WorkflowRunResult where
  | completed | skipped | lostLease
  | waiting (nextRetryAt : Option ℕ) (waitReason : Option WaitReason)
deriving DecidableEq, Repr

namespace Runner

variable (p : Platform) (executionId : String)

def notFound : Failure := .other ("Execution " ++ executionId ++ " not found") none

def reload : Eng LoadedExecution := do
  let loaded ← loadExecution
  match loaded with
  | some loaded => pure loaded
  | none => throw (notFound executionId)

/-- Suspend the execution and give the lease back. -/
def suspend (nextRetryAt : Option ℕ) (waitReason : Option WaitReason) : Eng WorkflowRunResult := do
  markWaiting waitReason
  release
  pure (.waiting nextRetryAt waitReason)

/-- Tell the parent of a subworkflow. -/
def wakeParent : Eng Unit := do
  let row ← findExecution executionId
  match row.bind (·.parentExecutionId) with
  | some parent => enqueue (.child parent executionId)
  | none => pure ()

/-- Complete the execution. -/
def transitionCompleted : Eng WorkflowRunResult := do
  let completedAt ← now
  let count ← transitionTerminal none completedAt
  release
  if count ≠ 1 then pure .completed
  else
    wakeParent executionId
    pure .completed

/-- The steps are done: complete the execution, unless a failed step is left. -/
def complete : Eng WorkflowRunResult := do
  assertOwned
  let failed ← countUnhandled
  if 0 < failed then throw (.other "Execution cannot complete with failed steps" none)
  else transitionCompleted executionId

variable (step : StepDefinition)

def exhaustedError (row : StepRow) : Failure :=
  .other ("Step " ++ step.key ++ " failed after " ++ toString row.attemptCount ++ " attempts") none

/-! ## The graph -/

/-- Where the main loop is. -/
structure Position where
  current : LoadedExecution
  next : Option String

/-- How the main loop ends. -/
inductive GraphExit where
  /-- No step is left. -/
  | stopped
  | returned (result : WorkflowRunResult)

variable (current : LoadedExecution)

/-- The row of a step of the main loop. -/
def rootRow (stepKey : String) : Option StepRow :=
  current.steps.find? fun row =>
    Decidable.decide (row.id.stepKey = stepKey) && Decidable.decide (row.id.executionPath = rootPath)

/-- Leave a step. -/
def leave (stepKey : String) (next : Option String) : Eng (Position ⊕ GraphExit) := do
  route stepKey next
  pure (.inl { current, next })

/-- Stop waiting for the next run. -/
def leaveWaiting (nextRetryAt : Option ℕ) (waitReason : Option WaitReason) :
    Eng (Position ⊕ GraphExit) := do
  let result ← suspend nextRetryAt waitReason
  pure (.inr (.returned result))

def isControlStep : StepType → Bool
  | .if | .switch | .approval => true
  | _ => false

variable (graph : RuntimeGraph)

/-- The steps of the branches that were not selected are skipped. -/
def skipUnselectedBranches (controlKey selected : String) : Eng Unit :=
  Prog.each (fun key =>
    match stepRow? p executionId key with
    | none => pure ()
    | some step => do
      let row ← ensure p executionId step rootPath none
      if isDone row.status then pure ()
      else
        skip p row "branch_not_selected"
        setStepResult .execution step.key .skipped (some (skippedOutput "branch_not_selected")))
    (branchSkipKeys graph controlKey selected)

/-- After a step that is done: where its stored output leads. -/
def leaveDone (current : LoadedExecution) (step : StepDefinition) : Eng (Position ⊕ GraphExit) :=
  match selectedNextStepKey graph step.key ((rootRow current step.key).bind (·.outputJson)) with
  | some selected => leave current step.key (some selected)
  | none =>
    if isTerminal graph step.key then do
      route step.key none
      pure (.inr .stopped)
    else throw (.other ("Workflow graph cannot resolve next step after " ++ step.key) none)

/-- After a control step has chosen a branch. -/
def settleBranches (step : StepDefinition) (result : StepResult) : Eng Unit :=
  match (selectedNextStepKey graph step.key result.output).filter
      fun _ => isControlStep step.type with
  | some selected => do
    selectBranch step.key selected
    skipUnselectedBranches p executionId graph step.key selected
  | none => pure ()

/-- The result of an attempt goes into the context of the execution. -/
def keepResult : StepOutcome → Eng Unit
  | .completed result => setStepResult .execution step.key result.status result.output
  | _ => pure ()

/-- An attempt of a step of the main loop. -/
def runStep (step : StepDefinition) (row : StepRow) : Eng (Position ⊕ GraphExit) := do
  let outcome ← execute p .execution step row
  assertOwned
  keepResult step outcome
  updateContextCache
  match outcome with
  | .retrying nextRetryAt => leaveWaiting (some nextRetryAt) none
  | .durableWait => leaveWaiting none (some .approval)
  | .completed result =>
    if step.type = .returnWorkflowOutput then
      writeOutput result.output
      let _ ← reload executionId
      route step.key none
      pure (.inr .stopped)
    else
      settleBranches p executionId graph step result
      let current ← reload executionId
      leaveDone graph current step

/-- A step whose row has been read, unless its attempts are used up or it is done. -/
def attempt (current : LoadedExecution) (step : StepDefinition) (row : StepRow) :
    Eng (Position ⊕ GraphExit) :=
  if attemptsExhausted row then throw (exhaustedError step row)
  else if isDone row.status then leaveDone graph current step
  else runStep p executionId graph step row

/-- A step that has a handler. -/
def plainStep (current : LoadedExecution) (step : StepDefinition) (row : StepRow) :
    Eng (Position ⊕ GraphExit) := do
  let t ← now
  match retryPending row t with
  | some nextRetryAt => leaveWaiting (some nextRetryAt) none
  | none =>
    if row.status = .retrying ∧ isIntentionalWait row then
      let output ← completeWait p row
      setStepResult .execution step.key .completed (some output)
      updateContextCache
      let current ← reload executionId
      match rootRow current step.key with
      | none => throw (.other "Cannot read properties of undefined (reading 'status')" none)
      | some row => attempt p executionId graph current step row
    else attempt p executionId graph current step row

/-- The state a replay takes over into a control step of the main loop. -/
def adjustReplay (stepKey : String) (replay : ExecutionRow) : StepInput → StepInput
  | .forEachState state =>
    if (replay.replayFromExecutionPath.any fun path => jsIncludes path ("/" ++ stepKey ++ "[")) then
      .forEachState (resumeLoop replay state)
    else .forEachState state
  | .tryState state =>
    match replay.replayFromExecutionPath.bind (replayRegion · stepKey) with
    | some region => .tryState { state with
        phase := if region ∈ ["body", "catch", "finally"] then .ofName region else state.phase
        currentStepKey := replay.replayFromStepKey
        primary := if region = "catch" then state.originalPrimary.or state.primary
          else if region = "finally" ∧ state.bodyStatus = .succeeded then none
          else state.primary }
    | none => .tryState state
  | value => value

/-- A loop. -/
def loopStep (services : Services) (current : LoadedExecution) (step : StepDefinition)
    (row : StepRow) : Eng (Position ⊕ GraphExit) :=
  match graph.target? step.key .forEachBody, graph.target? step.key .forEachDone with
  | some body, some done =>
    if body = done then throw (.other "FOR_EACH graph connections are invalid" none)
    else if row.status = .completed then do
      setStepResult .execution step.key .completed row.outputJson
      leave current step.key (some done)
    else do
      let outcome ← services.forEach
        { step, row, bodyEntry := body, done, bodyKeys := graph.regionKeys body done
          parentPath := rootPath }
      updateContextCache
      match outcome with
      | .waiting nextRetryAt waitReason => leaveWaiting nextRetryAt waitReason
      | .completed output =>
        setStepResult .execution step.key .completed (some output)
        let current ← reload executionId
        leave current step.key (some done)
  | _, _ => throw (.other "FOR_EACH graph connections are invalid" none)

/-- A try block. -/
def tryStep (services : Services) (current : LoadedExecution) (step : StepDefinition)
    (row : StepRow) : Eng (Position ⊕ GraphExit) :=
  match TryCatch.entries? graph step.key with
  | some entries =>
    if row.status = .completed then do
      setStepResult .execution step.key .completed row.outputJson
      leave current step.key (some entries.done)
    else do
      let outcome ← services.tryCatch
        { step, row, parentContext := .execution, parentPath := rootPath, iterationIndex := none }
      updateContextCache
      match outcome with
      | .waiting nextRetryAt waitReason => leaveWaiting nextRetryAt waitReason
      | .completed output =>
        setStepResult .execution step.key .completed (some output)
        let current ← reload executionId
        leave current step.key (some entries.done)
  | none => throw (.other "TRY_CATCH graph connections are invalid" none)

/-- After a subworkflow: where its output leads. -/
def subworkflowDone (step : StepDefinition) (output : Json) : Eng (Position ⊕ GraphExit) := do
  setStepResult .execution step.key .completed (some output)
  let current ← reload executionId
  leave current step.key (selectedNextStepKey graph step.key (some output))

/-- A subworkflow. -/
def subworkflowStep (step : StepDefinition) (row : StepRow) : Eng (Position ⊕ GraphExit) := do
  let outcome ← Subworkflow.execute p executionId .execution step row
  updateContextCache
  match outcome with
  | .waiting nextRetryAt _ => leaveWaiting nextRetryAt none
  | .completed output => subworkflowDone executionId graph step output

/-- Where a result that a replay reuses leads. -/
def reusedNext (step : StepDefinition) (output : Option Json) : Option String :=
  match step.type with
  | .forEach => graph.target? step.key .forEachDone
  | .tryCatch => graph.target? step.key .tryDone
  | _ => selectedNextStepKey graph step.key output

/-- One round of the main loop. -/
def rootStep (services : Services) (position : Position) : Eng (Position ⊕ GraphExit) :=
  match position.next with
  | none => pure (.inr .stopped)
  | some stepKey => do
    visit stepKey
    if position.current.row.status = .cancelled then
      release
      pure (.inr (.returned .completed))
    else
      assertOwned
      match stepRow? p executionId stepKey with
      | none => throw (.other ("Workflow graph references missing step " ++ stepKey) none)
      | some step =>
        match p.reuse? ⟨executionId, step.key, rootPath⟩ with
        | some reused =>
          setStepResult .execution step.key reused.status reused.outputJson
          leave position.current stepKey (reusedNext graph step reused.outputJson)
        | none =>
          let row ← ensure p executionId step rootPath none
          match step.type with
          | .forEach =>
            let row ← hydrate position.current.row row (adjustReplay step.key)
            loopStep executionId graph services position.current step row
          | .tryCatch =>
            let row ← hydrate position.current.row row (adjustReplay step.key)
            tryStep executionId graph services position.current step row
          | .executeWorkflow => subworkflowStep p executionId graph step row
          | _ => plainStep p executionId graph position.current step row

/-- The keys of the steps. -/
def stepKeys : List String :=
  ((p.definition executionId).steps.rows.filter fun step => Decidable.decide (0 < step.position)).map
    StepDefinition.key

/-- The main loop. -/
def graphLoop (current : LoadedExecution) : Eng GraphExit :=
  Prog.loop (exhausted .root)
    (rootStep p executionId graph (services p executionId graph p.fuel)) p.fuel
    { current, next := some graph.entryStepKey }

def runGraph (current : LoadedExecution) : Eng WorkflowRunResult :=
  match validateRuntimeGraph graph (stepKeys p executionId) with
  | .error message => throw (.other message none)
  | .ok () => do
    let exit ← graphLoop p executionId graph current
    match exit with
    | .returned result => pure result
    | .stopped => complete executionId

/-! ## A list of steps -/

/-- Where the loop over the steps is. -/
structure LinearPosition where
  current : LoadedExecution
  skipNext : Bool

def shouldSkipNext (output : Option Json) : Bool :=
  Decidable.decide (step.type = .conditional) && Json.truthy (step.config.get? "skipNextOnFalse") &&
    Json.strictEq false (Json.field output "passed") (some (.bool false))

/-- One step of the list. -/
def linearStep (position : LinearPosition) : Eng (LinearPosition ⊕ WorkflowRunResult) :=
  if position.current.row.status = .cancelled then do
    release
    pure (.inr .completed)
  else do
    assertOwned
    if step.position = 0 then pure (.inl position)
    else match p.reuse? ⟨executionId, step.key, rootPath⟩ with
    | some reused =>
      setStepResult .execution step.key reused.status reused.outputJson
      pure (.inl { position with skipNext := shouldSkipNext step reused.outputJson })
    | none =>
      let row ← ensure p executionId step rootPath none
      if row.status = .completed then
        pure (.inl { position with skipNext := shouldSkipNext step row.outputJson })
      else if row.status = .skipped then pure (.inl { position with skipNext := false })
      else
        let t ← now
        match retryPending row t with
        | some nextRetryAt =>
          let result ← suspend (some nextRetryAt) none
          pure (.inr result)
        | none =>
          if attemptsExhausted row then throw (exhaustedError step row)
          else if position.skipNext then
            skip p row "skipNextOnFalse"
            setStepResult .execution step.key .skipped (some (skippedOutput "skipNextOnFalse"))
            updateContextCache
            let current ← reload executionId
            pure (.inl { current, skipNext := false })
          else
            let outcome ← execute p .execution step row
            assertOwned
            keepResult step outcome
            updateContextCache
            match outcome with
            | .retrying nextRetryAt =>
              let result ← suspend (some nextRetryAt) none
              pure (.inr result)
            | .durableWait =>
              let result ← suspend none (some .approval)
              pure (.inr result)
            | .completed result =>
              let current ← reload executionId
              pure (.inl { current, skipNext := result.skipNext })

def runLinear : List StepDefinition → LinearPosition → Eng WorkflowRunResult
  | [], _ => complete executionId
  | step :: steps, position => do
    let next ← linearStep p executionId step position
    match next with
    | .inl position => runLinear steps position
    | .inr result => pure result

/-! ## A run -/

def deadLetterReason (failed : Option StepRow) : DeadLetterReason :=
  match failed with
  | none => .failed
  | some row =>
    if row.effectStatus = some .ambiguous then .ambiguous
    else if row.stepType = .delay ∨ row.stepType = .waitUntil then .invalidWait
    else if row.stepType = .if ∨ row.stepType = .switch then .branchResolutionFailed
    else if row.errorJson.any fun error => jsIncludes (jsToLowerCase error.message) "graph" then
      .controlValidationFailed
    else .failed

/-- A failed execution is put aside, unless it is a test run. -/
def putAside (execution : ExecutionRow) (failed : Option StepRow) : Eng Unit :=
  if execution.executionMode = .test then pure ()
  else if execution.workflowVersionId = none then
    throw (.other ("Execution " ++ execution.id ++ " is missing workflowVersionId") none)
  else deadLetter (deadLetterReason failed) (failed.map (·.id))

/-- An error ends the run; any but a lost lease fails the execution. -/
def recover (execution : ExecutionRow) (failure : Failure) : Eng WorkflowRunResult :=
  if failure = .leaseLost then pure .lostLease
  else do
    let latest ← executionStatus
    if latest = some .cancelled ∨ latest = some .completed then
      release
      pure .completed
    else
      let failed ← findFailed false
      let completedAt ← now
      let count ← transitionTerminal (some failure.message) completedAt
      if count ≠ 1 then
        release
        pure .completed
      else
        putAside execution failed
        wakeParent executionId
        release
        throw failure

/-- The step results of the context of the execution: those of its rows, and what a replay reuses.
-/
def rootResults : List (String × ContextStep) :=
  doneResults (current.steps.filter fun row =>
      Decidable.decide (row.id.executionPath = rootPath)) ++
    (p.reuses.filter fun reuse => Decidable.decide (reuse.recoveryExecutionId = executionId) &&
      Decidable.decide (reuse.executionPath = rootPath)).map fun reuse =>
        (reuse.stepKey, ⟨reuse.status, reuse.outputJson⟩)

/-- The steps of an execution that is active. -/
def runSteps : Eng WorkflowRunResult := do
  let current ← reload executionId
  setSteps .execution rootPath (rootResults p executionId current)
  match p.graph executionId with
  | some graph =>
    if (p.definition executionId).steps.rows.any fun step =>
        Decidable.decide (0 < step.position) && Decidable.decide (step.type = .conditional) then
      throw (.other
        "Legacy conditional is not supported in graph workflows. Use IF or Switch." none)
    else runGraph p executionId graph current
  | none =>
    runLinear p executionId (p.definition executionId).steps.rows { current, skipNext := false }

end Runner

/-- What a worker does with a job. -/
def run (p : Platform) (executionId : String) : Eng WorkflowRunResult := do
  let acquired ← acquire
  if !acquired then pure .skipped
  else
    let loaded ← loadExecution
    match loaded with
    | none => throw (Runner.notFound executionId)
    | some loaded =>
      if !loaded.row.status.isActive then
        release
        pure .completed
      else
        let t ← now
        markStarted (loaded.row.startedAt.getD t)
        (Runner.runSteps p executionId).handle (Runner.recover executionId loaded.row)

end Flowmind
