import Flowmind.Engine.Lease
import Flowmind.Engine.Platform
import Flowmind.Program.Prog

/-!
# The statements of a run

A run of an execution by a worker is a program that talks to the database and to its surroundings,
one statement after the other; between two statements anything may happen.  This file lists the
statements (`Statement`) with their answers, and says what each of them does (`Statement.perform`).

An update of a step execution takes the row as the program knows it, and a description of the
columns it sets (`StepWrite`); it finds the row by its identity and overwrites these columns
whatever they are by then.

The contexts that expressions are resolved in are objects in the memory of the worker; `setSteps`
and `setStepResult` change their step results and leave the database alone.

The statements `visit`, `route` and `selectBranch` do nothing.  They mark the places of the main
loop that the results about it speak of.
-/

namespace Flowmind

open Program

/-! ## Results of handlers -/

/-- Why a handler asks for a wait. -/
inductive StepWait where
  | delay | waitUntil | approval
deriving DecidableEq, Repr

/-- What a handler returns: a step that ran is completed or skipped. -/
structure StepResult where
  status : StepExecutionStatus
  output : Option Json
  skipNext : Bool := false
  waitUntil : Option ℕ := none
  waitReason : Option StepWait := none
  durableWait : Bool := false
  done : isDone status = true

/-- What the policy of a test run decides about a step. -/
inductive Decision where
  | runReal
  | mock (result : StepResult)
  | error (failure : Failure)

/-- The version a subworkflow step runs. -/
structure SubworkflowTarget where
  id : String
  /-- Its trigger is `subworkflow_trigger`. -/
  invocable : Bool
deriving DecidableEq, Repr

/-- Why an execution is put aside. -/
inductive DeadLetterReason where
  | ambiguous | invalidWait | branchResolutionFailed | controlValidationFailed | failed
deriving DecidableEq, Repr

/-! ## Contexts -/

/-- A context of a run: that of the execution, the frame of an iteration of a loop, or that of the
catch region of a try block, by its path. -/
inductive ContextId where
  | execution
  | iteration (executionPath : String)
  | caught (executionPath : String)
deriving DecidableEq, Repr

/-- The result of a step in a context. -/
structure ContextStep where
  status : StepExecutionStatus
  output : Option Json

/-- The rows that are done, as results. -/
def doneResults (rows : List StepRow) : List (String × ContextStep) :=
  (rows.filter fun row => isDone row.status).map fun row =>
    (row.id.stepKey, ⟨row.status, row.outputJson⟩)

/-! ## Updates of a step execution -/

/-- The columns an update of a step execution sets. -/
inductive StepWrite where
  /-- An attempt begins. -/
  | start (attempt maxAttempts startedAt : ℕ)
  | input (config : Json)
  /-- The step waits for an approval. -/
  | durableWait (output : Option Json) (completedAt : ℕ)
  /-- The step waits for a time. -/
  | wait (output : Option Json) (nextRetryAt : ℕ) (effect : EffectStatus) (completedAt : ℕ)
  | complete (result : StepResult) (output : Option Json) (completedAt : ℕ)
  /-- The attempt failed; with a time, the step is tried again. -/
  | fail (error : StepError) (nextRetryAt : Option ℕ) (effect : EffectStatus) (completedAt : ℕ)
  | skip (reason : String) (output : Json) (now : ℕ)
  /-- The time has come. -/
  | completeWait (output : Json) (now : ℕ)
  | loopStart (state : LoopState) (output : Json)
  | loopCheckpoint (state : LoopState) (output : Json)
  | loopComplete (output : Json) (completedAt : ℕ)
  | loopFail (output : Json) (error : StepError) (completedAt : ℕ)
  | tryStart (state : TryState)
  | tryCheckpoint (state : TryState) (output : Json)
  | tryComplete (output : Json) (completedAt : ℕ)
  | tryFail (output : Json) (error : StepError) (completedAt : ℕ)
  /-- A child execution begins. -/
  | childStart (attempt maxAttempts startedAt nextRetryAt : ℕ) (workflowId versionPolicy : String)
  | childWait (nextRetryAt : ℕ)
  | childComplete (output : Json) (completedAt : ℕ)
  | childFail (error : StepError) (completedAt : ℕ)
  /-- A replay takes over the state of a loop or try block. -/
  | hydrate (taken : StepInput)

namespace StepWrite

def apply : StepWrite → StepRow → StepRow
  | start attempt maxAttempts startedAt, row =>
    { row with
      status := .running, attemptCount := attempt, maxAttempts := maxAttempts
      startedAt := some startedAt, completedAt := none, nextRetryAt := none, inputJson := .empty }
  | input config, row => { row with inputJson := .config config }
  | durableWait output completedAt, row =>
    { row with
      status := .retrying, outputJson := output, errorJson := none
      completedAt := some completedAt, nextRetryAt := none
      effectStatus := some .approvalWaiting }
  | wait output nextRetryAt effect completedAt, row =>
    { row with
      status := .retrying, outputJson := output, errorJson := none
      completedAt := some completedAt, nextRetryAt := some nextRetryAt
      effectStatus := some effect }
  | complete result output completedAt, row =>
    { row with
      status := result.status, outputJson := output, errorJson := none
      completedAt := some completedAt, effectStatus := some .succeeded }
  | fail error nextRetryAt effect completedAt, row =>
    { row with
      status := if nextRetryAt.isSome then .retrying else .failed
      errorJson := some error, completedAt := some completedAt, nextRetryAt := nextRetryAt
      effectStatus := some effect }
  | skip reason output now, row =>
    { row with
      status := .skipped, inputJson := .reason reason, outputJson := some output
      startedAt := some now, completedAt := some now, effectStatus := some .skipped }
  | completeWait output now, row =>
    { row with
      status := .completed, outputJson := some output, errorJson := none
      completedAt := some now, nextRetryAt := none, effectStatus := some .succeeded }
  | loopStart state output, row =>
    { row with
      status := .running, startedAt := some state.startedAt, inputJson := .forEachState state
      outputJson := some output, attemptCount := 1, effectStatus := some .running }
  | loopCheckpoint state output, row =>
    { row with inputJson := .forEachState state, outputJson := some output }
  | loopComplete output completedAt, row =>
    { row with
      status := .completed, outputJson := some output, completedAt := some completedAt
      effectStatus := some .succeeded }
  | loopFail output error completedAt, row =>
    { row with
      status := .failed, outputJson := some output, errorJson := some error
      completedAt := some completedAt, effectStatus := some .failed }
  | tryStart state, row =>
    { row with
      status := .running, startedAt := some state.startedAt, attemptCount := 1
      effectStatus := some .running, inputJson := .tryState state }
  | tryCheckpoint state output, row =>
    { row with inputJson := .tryState state, outputJson := some output }
  | tryComplete output completedAt, row =>
    { row with
      status := .completed, outputJson := some output, errorJson := none
      completedAt := some completedAt, effectStatus := some .succeeded }
  | tryFail output error completedAt, row =>
    { row with
      status := .failed, outputJson := some output, errorJson := some error
      completedAt := some completedAt, effectStatus := some .failed }
  | childStart attempt maxAttempts startedAt nextRetryAt workflowId versionPolicy, row =>
    { row with
      status := .retrying, attemptCount := attempt, maxAttempts := maxAttempts
      startedAt := some startedAt, nextRetryAt := some nextRetryAt
      effectStatus := some .subworkflowWaiting
      inputJson := .subworkflow workflowId versionPolicy }
  | childWait nextRetryAt, row =>
    { row with
      status := .retrying, nextRetryAt := some nextRetryAt
      effectStatus := some .subworkflowWaiting }
  | childComplete output completedAt, row =>
    { row with
      status := .completed, outputJson := some output, errorJson := none
      completedAt := some completedAt, nextRetryAt := none, effectStatus := some .succeeded }
  | childFail error completedAt, row =>
    { row with
      status := .failed, errorJson := some error, completedAt := some completedAt
      nextRetryAt := none, effectStatus := some .failed }
  | hydrate taken, row => { row with inputJson := taken }

@[simp] lemma id_apply (write : StepWrite) (row : StepRow) : (write.apply row).id = row.id := by
  cases write <;> rfl

end StepWrite

/-! ## Statements and their answers -/

/-- The loops of the engine that have no bound of their own. -/
inductive LoopName where
  | root | ancestry | iterations | body | region | nesting
deriving DecidableEq, Repr

/-- A statement of a run. -/
inductive Statement where
  | now
  -- the lease service
  | acquire
  | assertOwned
  | release
  -- the execution of the run
  | loadExecution
  | markStarted (startedAt : ℕ)
  | markWaiting (waitReason : Option WaitReason)
  /-- Completed, or failed with a message. -/
  | transitionTerminal (failure : Option String) (completedAt : ℕ)
  | writeContext
  | writeOutput (output : Option Json)
  | executionStatus
  | countUnhandled
  /-- The failed step that was written last. -/
  | findFailed (unhandled : Bool)
  -- its step executions
  | hasStep (id : StepId)
  | countSteps
  | upsertStep (step : StepDefinition) (executionPath : String) (iterationIndex : Option ℕ)
      (maxAttempts : ℕ)
  | getStep (id : StepId)
  | findSteps (executionPath : String)
  | writeStep (row : StepRow) (write : StepWrite)
  | markHandled (id : StepId)
  -- other executions
  | findExecution (id : String)
  | replaySource (id : StepId)
  | latestChild (parent : StepId)
  | countChildren (rootId : String)
  | cancelChild (id : String) (completedAt : ℕ)
  | startChild (row : StepRow) (write : StepWrite) (child : ExecutionRow)
  | enqueue (id : JobId)
  | deadLetter (reason : DeadLetterReason) (failedStep : Option StepId)
  -- the contexts
  /-- The results of the steps of a path take the place of all others. -/
  | setSteps (context : ContextId) (executionPath : String) (steps : List (String × ContextStep))
  | setStepResult (context : ContextId) (stepKey : String) (result : ContextStep)
  -- the surroundings
  | freshId
  | resolveConfig (context : ContextId) (row : StepRow) (step : StepDefinition)
  | decide (step : StepDefinition) (config : Json)
  | invoke (context : ContextId) (row : StepRow) (step : StepDefinition) (attempt : ℕ) (config : Json)
  /-- In the context of the execution, wherever the loop is. -/
  | loopSource (row : StepRow) (step : StepDefinition)
  | resolveTarget (workflowId versionPolicy : String) (workflowVersionId : Option String)
  -- marks
  | visit (stepKey : String)
  | route (stepKey : String) (next : Option String)
  | selectBranch (stepKey selected : String)
  /-- The fuel of a loop is used up: there is no answer. -/
  | exhausted (loop : LoopName)

/-- An execution with its steps. -/
structure LoadedExecution where
  row : ExecutionRow
  steps : List StepRow

/-- The answers of a statement. -/
def Answer : Statement → Type
  | .now | .countUnhandled | .countSteps | .countChildren _ | .transitionTerminal .. => ℕ
  | .acquire | .assertOwned | .hasStep _ => Bool
  | .release | .markStarted _ | .markWaiting _ | .writeContext | .writeOutput _ | .markHandled _
  | .cancelChild .. | .startChild .. | .enqueue _ | .setSteps .. | .setStepResult .. | .visit _
  | .route .. | .selectBranch .. => Unit
  | .loadExecution => Option LoadedExecution
  | .executionStatus => Option ExecutionStatus
  | .findFailed _ | .getStep _ => Option StepRow
  | .findSteps _ => List StepRow
  | .upsertStep .. | .writeStep .. => StepRow
  | .findExecution _ | .latestChild _ => Option ExecutionRow
  | .replaySource _ => Option StepInput
  | .freshId => String
  | .deadLetter .. => Except Failure Unit
  | .resolveConfig .. | .loopSource .. => Except Failure Json
  | .decide .. => Decision
  | .invoke .. => Except Failure StepResult
  | .resolveTarget .. => Except Failure SubworkflowTarget
  | .exhausted _ => Empty

/-! ## What a statement does -/

/-- The job a worker is working on. -/
structure Job where
  worker : String
  executionId : String
  organizationId : String
deriving DecidableEq, Repr

/-- What the surroundings contribute to one statement: the answers of handlers and expressions, how
long ago the clock was read, and which of several matching rows comes first. -/
structure Oracle where
  lag : ℕ := 0
  pick : ℕ := 0
  freshId : String := ""
  config : Except Failure Json := .ok (.obj [])
  decision : Decision := .runReal
  result : Except Failure StepResult :=
    .ok { status := .completed, output := none, done := isDone_completed }
  target : Except Failure SubworkflowTarget := .ok ⟨"", true⟩
  deadLetter : Except Failure Unit := .ok ()

/-- The step execution as `ensure` creates it. -/
def newStep (id : StepId) (stepType : StepType) (iterationIndex : Option ℕ) (maxAttempts : ℕ) :
    StepRow where
  id := id
  stepType := stepType
  iterationIndex := iterationIndex
  status := .pending
  attemptCount := 0
  maxAttempts := maxAttempts
  nextRetryAt := none
  effectStatus := none
  inputJson := .empty
  outputJson := none
  errorJson := none
  errorHandled := false
  startedAt := none
  completedAt := none

namespace Database

variable (db : Database)

/-- `stepExecution.upsert`: the row afterwards, and the database. -/
def upsertStep (id : StepId) (stepType : StepType) (iterationIndex : Option ℕ) (maxAttempts : ℕ) :
    StepRow × Database :=
  match h : db.steps.get? id with
  | some row =>
    let update (row : StepRow) : StepRow :=
      { row with
        maxAttempts := maxAttempts, iterationIndex := iterationIndex.or row.iterationIndex }
    (update row, db.updateStep id update)
  | none =>
    let row := newStep id stepType iterationIndex maxAttempts
    (row, { db with steps := db.steps.insert row h })

/-- `execution.create`, when the identity is not taken. -/
def createExecution (row : ExecutionRow) : Option Database :=
  if h : db.executions.get? row.id = none then
    some { db with executions := db.executions.insert row h }
  else none

/-- A child execution is created in the queue, and nobody holds it. -/
def createChild (child : ExecutionRow) : Option Database :=
  db.createExecution { child with status := .queued, lockedBy := none, lockedUntil := none }

/-- Update an execution. -/
def updateExecution (id : String) (data : ExecutionRow → ExecutionRow)
    (hid : ∀ row, (data row).id = row.id := by intro _; rfl) : Database :=
  db.updateExecutions (fun row => decide (row.id = id)) data hid

/-- Update an execution if it is active. -/
def updateActive (id : String) (data : ExecutionRow → ExecutionRow)
    (hid : ∀ row, (data row).id = row.id := by intro _; rfl) : Database :=
  db.updateExecutions (fun row => decide (row.id = id) && row.status.isActive) data hid

/-- The child of a step execution that was created last. -/
def latestChild (parent : StepId) : Option ExecutionRow :=
  (db.executions.rows.filter fun row => decide (row.parentStepExecutionId = some parent)).foldl
    (fun latest row => match latest with
      | some found => if found.createdAt < row.createdAt then some row else some found
      | none => some row) none

end Database

/-- The failed steps of an execution. -/
def failedSteps (db : Database) (executionId : String) (unhandled : Bool) : List StepRow :=
  (db.stepsOf executionId).filter fun row =>
    decide (row.status = .failed) && (!unhandled || !row.errorHandled)

/-- The answer of a statement and the database after it.  A row that is updated exists: rows are
only deleted long after their execution has ended, which is left out here. -/
def Statement.perform (p : Platform) (job : Job) (clock : ℕ) (oracle : Oracle) (db : Database) :
    (statement : Statement) → Option (Answer statement × Database)
  | .now => some (clock, db)
  | .acquire => some (Lease.acquire db p.leaseDurationMs job.worker job.executionId
      job.organizationId (clock - oracle.lag))
  | .assertOwned =>
    some (Lease.assertOwned db job.worker job.executionId (clock - oracle.lag), db)
  | .release => some ((), Lease.release db job.worker job.executionId)
  | .loadExecution =>
    some (((db.executions.get? job.executionId).filter fun row =>
      Decidable.decide (row.organizationId = job.organizationId)).map fun row =>
        ⟨row, db.stepsOf job.executionId⟩, db)
  | .markStarted startedAt =>
    some ((), db.updateActive job.executionId fun row =>
      { row with startedAt := some startedAt, completedAt := none })
  | .markWaiting waitReason =>
    some ((), db.updateActive job.executionId fun row =>
      { row with
        status := .retrying, completedAt := none, waitReason := some (waitReason.getD .retry) })
  | .transitionTerminal failure completedAt =>
    let active (row : ExecutionRow) : Bool := Decidable.decide (row.id = job.executionId) &&
      Decidable.decide (row.organizationId = job.organizationId) && row.status.isActive
    some (db.executions.count active, db.updateExecutions active fun row =>
      { row with
        status := if failure.isSome then .failed else .completed
        waitReason := none, completedAt := some completedAt, errorJson := failure })
  | .writeContext => some ((), db)
  | .writeOutput output =>
    some ((), db.updateExecution job.executionId fun row => { row with outputJson := output })
  | .executionStatus => some ((db.executions.get? job.executionId).map (·.status), db)
  | .countUnhandled => some ((failedSteps db job.executionId true).length, db)
  | .findFailed unhandled =>
    let failed := failedSteps db job.executionId unhandled
    some (failed[oracle.pick % failed.length]?, db)
  | .hasStep id => some ((db.steps.get? id).isSome, db)
  | .countSteps => some ((db.stepsOf job.executionId).length, db)
  | .upsertStep step executionPath iterationIndex maxAttempts =>
    some (db.upsertStep ⟨job.executionId, step.key, executionPath⟩ step.type iterationIndex
      maxAttempts)
  | .getStep id => some (db.steps.get? id, db)
  | .findSteps executionPath =>
    some ((db.stepsOf job.executionId).filter fun row =>
      Decidable.decide (row.id.executionPath = executionPath), db)
  | .writeStep row write =>
    (db.steps.get? row.id).map fun found =>
      (write.apply found, db.updateStep row.id write.apply (by simp))
  | .markHandled id => some ((), db.updateStep id fun row => { row with errorHandled := true })
  | .findExecution id =>
    some ((db.executions.get? id).filter fun row =>
      Decidable.decide (row.organizationId = job.organizationId), db)
  | .replaySource id => some ((db.steps.get? id).map (·.inputJson), db)
  | .latestChild parent => some (db.latestChild parent, db)
  | .countChildren rootId =>
    some (db.executions.count fun row =>
      Decidable.decide (row.organizationId = job.organizationId) &&
        Decidable.decide (row.rootExecutionId = some rootId), db)
  | .cancelChild id completedAt =>
    some ((), db.updateActive id fun row =>
      { row with
        status := .cancelled, completedAt := some completedAt, lockedBy := none, lockedUntil := none })
  | .startChild row write child =>
    -- One transaction.
    ((db.updateStep row.id write.apply (by simp)).createChild child).map ((), ·)
  | .enqueue _ => some ((), db)
  | .deadLetter .. => some (oracle.deadLetter, db)
  | .setSteps .. => some ((), db)
  | .setStepResult .. => some ((), db)
  | .freshId => some (oracle.freshId, db)
  | .resolveConfig .. => some (oracle.config, db)
  | .decide .. => some (oracle.decision, db)
  | .invoke .. => some (oracle.result, db)
  | .loopSource .. => some (oracle.config, db)
  | .resolveTarget .. => some (oracle.target, db)
  | .visit _ => some ((), db)
  | .route .. => some ((), db)
  | .selectBranch .. => some ((), db)
  | .exhausted _ => none

/-! ## Programs -/

/-- A program of the engine. -/
abbrev Eng (α : Type) : Type := Prog Statement Answer Failure α

namespace Eng

/-- One statement. -/
def ask (statement : Statement) : Eng (Answer statement) := Prog.perform statement

/-- Throw an error. -/
def throw {α : Type} (failure : Failure) : Eng α := .fail failure

def now : Eng ℕ := ask .now
def acquire : Eng Bool := ask .acquire
def release : Eng Unit := ask .release
def loadExecution : Eng (Option LoadedExecution) := ask .loadExecution
def markStarted (startedAt : ℕ) : Eng Unit := ask (.markStarted startedAt)
def markWaiting (waitReason : Option WaitReason := none) : Eng Unit :=
  ask (.markWaiting waitReason)
def transitionTerminal (failure : Option String) (completedAt : ℕ) : Eng ℕ :=
  ask (.transitionTerminal failure completedAt)
def updateContextCache : Eng Unit := ask .writeContext
def writeOutput (output : Option Json) : Eng Unit := ask (.writeOutput output)
def executionStatus : Eng (Option ExecutionStatus) := ask .executionStatus
def countUnhandled : Eng ℕ := ask .countUnhandled
def findFailed (unhandled : Bool) : Eng (Option StepRow) := ask (.findFailed unhandled)
def hasStep (id : StepId) : Eng Bool := ask (.hasStep id)
def countSteps : Eng ℕ := ask .countSteps
def upsertStep (step : StepDefinition) (executionPath : String) (iterationIndex : Option ℕ)
    (maxAttempts : ℕ) : Eng StepRow :=
  ask (.upsertStep step executionPath iterationIndex maxAttempts)
def getStep (id : StepId) : Eng (Option StepRow) := ask (.getStep id)
def findSteps (executionPath : String) : Eng (List StepRow) := ask (.findSteps executionPath)
def writeStep (row : StepRow) (write : StepWrite) : Eng StepRow := ask (.writeStep row write)
def markHandled (id : StepId) : Eng Unit := ask (.markHandled id)
def findExecution (id : String) : Eng (Option ExecutionRow) := ask (.findExecution id)
def replaySource (id : StepId) : Eng (Option StepInput) := ask (.replaySource id)
def latestChild (parent : StepId) : Eng (Option ExecutionRow) := ask (.latestChild parent)
def countChildren (rootId : String) : Eng ℕ := ask (.countChildren rootId)
def cancelChild (id : String) (completedAt : ℕ) : Eng Unit :=
  ask (.cancelChild id completedAt)
def startChild (row : StepRow) (write : StepWrite) (child : ExecutionRow) : Eng Unit :=
  ask (.startChild row write child)
def enqueue (id : JobId) : Eng Unit := ask (.enqueue id)
def setSteps (context : ContextId) (executionPath : String) (steps : List (String × ContextStep)) :
    Eng Unit :=
  ask (.setSteps context executionPath steps)
def setStepResult (context : ContextId) (stepKey : String) (status : StepExecutionStatus)
    (output : Option Json) : Eng Unit :=
  ask (.setStepResult context stepKey ⟨status, output⟩)
def freshId : Eng String := ask .freshId
def decide (step : StepDefinition) (config : Json) : Eng Decision := ask (.decide step config)
def visit (stepKey : String) : Eng Unit := ask (.visit stepKey)
def route (stepKey : String) (next : Option String) : Eng Unit := ask (.route stepKey next)
def selectBranch (stepKey selected : String) : Eng Unit := ask (.selectBranch stepKey selected)

/-- What the surroundings refuse is thrown. -/
def orThrow {α : Type} (answer : Eng (Except Failure α)) : Eng α := answer.bind .ofExcept

def resolveConfig (context : ContextId) (row : StepRow) (step : StepDefinition) : Eng Json :=
  orThrow (ask (.resolveConfig context row step))
def invoke (context : ContextId) (row : StepRow) (step : StepDefinition) (attempt : ℕ)
    (config : Json) : Eng StepResult :=
  orThrow (ask (.invoke context row step attempt config))
def loopSource (row : StepRow) (step : StepDefinition) : Eng Json :=
  orThrow (ask (.loopSource row step))
def resolveTarget (workflowId versionPolicy : String) (workflowVersionId : Option String) :
    Eng SubworkflowTarget :=
  orThrow (ask (.resolveTarget workflowId versionPolicy workflowVersionId))
def deadLetter (reason : DeadLetterReason) (failedStep : Option StepId) : Eng Unit :=
  orThrow (ask (.deadLetter reason failedStep))

/-- The program waits for ever. -/
def exhausted {α : Type} (loop : LoopName) : Eng α := Prog.ask (.exhausted loop) Empty.elim

/-- The check of the lease. -/
def assertOwned : Eng Unit :=
  (ask .assertOwned).bind fun
    | true => pure ()
    | false => throw .leaseLost

end Eng

end Flowmind
