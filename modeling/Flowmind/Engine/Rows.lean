import Flowmind.Graph.StepConfig
import Flowmind.Store.Table

/-!
# The rows of the database

The two tables the worker lives on: **executions**, with their status and the lease of the worker
that runs them, and **step executions**, one for each step of an execution and each place it is run
at.  Columns that are only ever written (durations, debug output, audit data) are left out.

A step execution is found by its execution, step key and execution path; that triple is unique in
the schema and never changes, and it serves as the identity of the row here.
-/

namespace Flowmind

/-! ## Statuses -/

/-- The status of an execution. -/
inductive ExecutionStatus where
  | pending | queued | running | retrying | completed | failed | cancelled
deriving DecidableEq, Repr

/-- The statuses of `ACTIVE_EXECUTION_STATUSES`; a worker may process exactly these. -/
def ExecutionStatus.isActive : ExecutionStatus → Bool
  | pending | queued | running | retrying => true
  | completed | failed | cancelled => false

/-- The status of a step execution. -/
inductive StepExecutionStatus where
  | pending | running | completed | failed | skipped | retrying
deriving DecidableEq, Repr

def isDone : StepExecutionStatus → Bool
  | .completed | .skipped => true
  | .pending | .running | .failed | .retrying => false

lemma isDone_completed : isDone .completed = true := rfl

/-- What is known about the effect of a step. -/
inductive EffectStatus where
  | running | succeeded | failed | ambiguous | skipped
  | approvalWaiting | delay | waitUntil | approval | waiting | subworkflowWaiting
deriving DecidableEq, Repr

/-- Why a suspended execution waits. -/
inductive WaitReason where
  | retry | approval
deriving DecidableEq, Repr

/-- How an error was classified; `unknown` when a row does not say. -/
inductive ErrorCategory where
  | retryable | nonRetryable | ambiguous | unknown
deriving DecidableEq, Repr

/-- An error as it is stored in a row. -/
structure StepError where
  message : String
  classification : ErrorCategory
  code : Option String := none
deriving DecidableEq, Repr

/-! ## Executions -/

/-- Whether an execution is a test run. -/
inductive ExecutionMode where
  | real | test
deriving DecidableEq, Repr

/-- The identity of a step execution. -/
structure StepId where
  executionId : String
  stepKey : String
  executionPath : String
deriving DecidableEq, Repr

/-- A row of the table of executions. -/
structure ExecutionRow where
  id : String
  organizationId : String
  workflowId : String
  workflowVersionId : Option String
  executionMode : ExecutionMode
  status : ExecutionStatus
  lockedBy : Option String
  lockedUntil : Option ℕ
  runAttempt : ℕ
  createdAt : ℕ
  startedAt : Option ℕ
  completedAt : Option ℕ
  waitReason : Option WaitReason
  outputJson : Option Json
  errorJson : Option String
  parentExecutionId : Option String
  parentStepExecutionId : Option StepId
  rootExecutionId : Option String
  depth : ℕ
  replayOfExecutionId : Option String
  replayFromStepKey : Option String
  replayFromExecutionPath : Option String
  replayFromIterationIndex : Option ℕ

/-- A row as the dispatchers create it. -/
def newExecution (id organizationId workflowId workflowVersionId : String)
    (status : ExecutionStatus) (createdAt : ℕ) : ExecutionRow where
  id := id
  organizationId := organizationId
  workflowId := workflowId
  workflowVersionId := some workflowVersionId
  executionMode := .real
  status := status
  lockedBy := none
  lockedUntil := none
  runAttempt := 0
  createdAt := createdAt
  startedAt := none
  completedAt := none
  waitReason := none
  outputJson := none
  errorJson := none
  parentExecutionId := none
  parentStepExecutionId := none
  rootExecutionId := none
  depth := 0
  replayOfExecutionId := none
  replayFromStepKey := none
  replayFromExecutionPath := none
  replayFromIterationIndex := none

/-! ## What loops and try blocks keep between two runs -/

/-- One entry of the errors of a loop. -/
structure ForEachErrorSummary where
  iterationIndex : ℕ
  stepKey : String
  code : Option String
  message : String
deriving DecidableEq, Repr

/-- The persisted state of a loop. -/
structure LoopState where
  items : List Json
  nextIndex : ℕ
  currentStepKey : Option String
  succeeded : ℕ
  failed : ℕ
  skipped : ℕ
  results : List Json
  errors : List ForEachErrorSummary
  resultsTruncated : Bool
  errorsTruncated : Bool
  startedAt : ℕ

/-- The phase a try block is in. -/
inductive TryPhase where
  | body | catch | finally | complete | failed
  /-- A text that names no phase; only the recovery of a replay can write one. -/
  | other (name : String)
deriving DecidableEq, Repr

/-- How far a region of a try block has come. -/
inductive RegionStatus where
  | notRun | succeeded | failed
deriving DecidableEq, Repr

/-- An error without its secrets. -/
structure SafeStepError where
  message : String
  category : ErrorCategory
  code : Option String
  stepKey : String
  executionPath : String
  retryable : Bool
  attempts : ℕ
deriving DecidableEq, Repr

/-- An error together with the row of the step that failed. -/
structure PrimaryFailure where
  id : StepId
  error : SafeStepError
deriving DecidableEq, Repr

/-- The persisted state of a try block. -/
structure TryState where
  phase : TryPhase
  startedAt : ℕ
  bodyStatus : RegionStatus
  catchStatus : RegionStatus
  finallyStatus : RegionStatus
  currentStepKey : Option String
  primary : Option PrimaryFailure
  originalPrimary : Option PrimaryFailure
  secondary : Option SafeStepError
  handled : Bool

/-! ## Step executions -/

/-- The input column of a step execution. -/
inductive StepInput where
  | empty
  | config (resolved : Json)
  | reason (text : String)
  | forEachState (state : LoopState)
  | tryState (state : TryState)
  | subworkflow (workflowId versionPolicy : String)

/-- The object has no keys. -/
def StepInput.isEmpty : StepInput → Bool
  | .empty => true
  | _ => false

/-- A row of the table of step executions. -/
structure StepRow where
  id : StepId
  stepType : StepType
  iterationIndex : Option ℕ
  status : StepExecutionStatus
  attemptCount : ℕ
  maxAttempts : ℕ
  nextRetryAt : Option ℕ
  effectStatus : Option EffectStatus
  inputJson : StepInput
  outputJson : Option Json
  errorJson : Option StepError
  errorHandled : Bool
  startedAt : Option ℕ
  completedAt : Option ℕ

/-! ## Approvals -/

/-- The status of an approval request. -/
inductive ApprovalStatus where
  | pending | approved | rejected | expired | cancelled
deriving DecidableEq, Repr

/-- A row of the table of approval requests; there is one at most for a step execution. -/
structure ApprovalRow where
  stepExecutionId : StepId
  executionId : String
  status : ApprovalStatus
  expiresAt : Option ℕ
deriving DecidableEq, Repr

/-! ## Jobs -/

/-- Why the reconciler puts an execution into the queue. -/
inductive RecoveryReason where
  | expiredLeaseRecovered | retryRecovered | queuedJobRecovered
deriving DecidableEq, Repr

/-- The id of a job in the queue; a job is there for one execution. -/
inductive JobId where
  /-- `execution-<id>` -/
  | dispatch (executionId : String)
  /-- `execution-<id>-recovery-<reason>-run-<runAttempt>` -/
  | recovery (executionId : String) (reason : RecoveryReason) (runAttempt : ℕ)
  /-- `execution-<id>-approval-<approval>-v<version>`; the version counts decisions, of which there is
  one. -/
  | approval (executionId : String) (stepExecutionId : StepId)
  /-- `execution-<id>-retry-<time>` -/
  | retry (executionId : String) (time : ℕ)
  /-- `execution-<id>-child-<child>` -/
  | child (executionId child : String)
deriving DecidableEq, Repr

/-- Only the reconciler uses such an id. -/
def JobId.isRecovery : JobId → Bool
  | recovery .. => true
  | _ => false

/-! ## The database -/

/-- The tables. -/
structure Database where
  executions : Store.Table ExecutionRow ExecutionRow.id
  steps : Store.Table StepRow StepRow.id
  approvals : Store.Table ApprovalRow ApprovalRow.stepExecutionId

namespace Database

/-- A database with one execution. -/
def single (row : ExecutionRow) : Database where
  executions := ⟨[row], by simp⟩
  steps := .empty
  approvals := .empty

/-- The steps of an execution. -/
def stepsOf (db : Database) (executionId : String) : List StepRow :=
  db.steps.rows.filter fun row => decide (row.id.executionId = executionId)

/-- `execution.updateMany`. -/
def updateExecutions (db : Database) (where_ : ExecutionRow → Bool)
    (data : ExecutionRow → ExecutionRow) (hid : ∀ row, (data row).id = row.id := by intro _; rfl) :
    Database :=
  { db with executions := db.executions.updateMany where_ data hid }

/-- `stepExecution.update`. -/
def updateStep (db : Database) (id : StepId) (data : StepRow → StepRow)
    (hid : ∀ row, (data row).id = row.id := by intro _; rfl) : Database :=
  { db with steps := db.steps.updateMany (fun row => decide (row.id = id)) data hid }

variable {db : Database}

section Rows

variable {e : String} {where_ : ExecutionRow → Bool} {data : ExecutionRow → ExecutionRow}
  {hid : ∀ row, (data row).id = row.id}

lemma get?_updateExecutions :
    (db.updateExecutions where_ data hid).executions.get? e =
      (db.executions.get? e).map fun row => if where_ row then data row else row :=
  Store.Table.get?_updateMany db.executions where_ data hid e

/-- An update of rows other than this one. -/
lemma get?_updateExecutions_of_not
    (h : ∀ row, db.executions.get? e = some row → where_ row = false) :
    (db.updateExecutions where_ data hid).executions.get? e = db.executions.get? e := by
  rw [get?_updateExecutions]
  cases hrow : db.executions.get? e with
  | none => rfl
  | some row => rw [Option.map_some, h row hrow, if_neg (by simp)]

lemma id_of_get? {row : ExecutionRow} (h : db.executions.get? e = some row) : row.id = e :=
  Store.Table.key_of_get? h

/-- Counting with a condition that fixes the execution looks at its row only. -/
lemma count_eq_one_iff (h : ∀ row, where_ row = true → row.id = e) :
    db.executions.count where_ = 1 ↔ ∃ row, db.executions.get? e = some row ∧ where_ row = true :=
  Store.Table.count_eq_one_iff h

end Rows

section StepRows

variable {id : StepId} {data : StepRow → StepRow} {hid : ∀ row, (data row).id = row.id}

lemma get?_updateStep (id' : StepId) :
    (db.updateStep id data hid).steps.get? id' =
      (db.steps.get? id').map fun row => if id' = id then data row else row := by
  have h := Store.Table.get?_updateMany db.steps (fun row => decide (row.id = id)) data hid id'
  rw [updateStep, h]
  cases hrow : db.steps.get? id' with
  | none => rfl
  | some row => simp [Store.Table.key_of_get? hrow]

end StepRows

end Database

end Flowmind
