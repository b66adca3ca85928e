import Flowmind.Engine.Statement

/-!
# The reconciler

Every worker process runs a reconciler, which looks at regular intervals for executions that nobody
works on and puts them back into the queue.  A pass (`reconcile`) has five parts, each a query
followed by updates of what it found, one statement at a time.

The queries are conditions on rows (`expiredRunning`, `dueRetry`, `pendingDispatch`, `queuedIdle`,
`approvalExpired`, `approvalStranded`).  A query returns a bounded number of rows in no particular
order, so which of the matching ones it returns is up to the database.
-/

namespace Flowmind

open Program

/-! ## The conditions of the queries -/

variable (db : Database)

/-- The execution has a step whose retry or wait is due. -/
def hasDueStep (executionId : String) (now : ℕ) : Bool :=
  (db.stepsOf executionId).any fun row =>
    decide (row.status = .retrying) && row.nextRetryAt.any fun t => decide (t ≤ now)

/-- `requeueDueRetries`. -/
def dueRetry (now : ℕ) (row : ExecutionRow) : Bool :=
  (decide (row.status = .retrying) || decide (row.status = .queued)) && row.lockedBy.isNone &&
    hasDueStep db row.id now

/-- `recoverPendingDispatches`: the execution is older than the grace period. -/
def pendingDispatch (grace now : ℕ) (row : ExecutionRow) : Bool :=
  decide (row.status = .pending) && decide (row.createdAt + grace ≤ now) && row.lockedBy.isNone

/-- `requeueQueuedExecutions`. -/
def queuedIdle (now : ℕ) (row : ExecutionRow) : Bool :=
  decide (row.status = .queued) && row.lockedBy.isNone && !hasDueStep db row.id now

/-- `recoverApprovals`: a request whose time is over. -/
def approvalExpired (now : ℕ) (approval : ApprovalRow) : Bool :=
  decide (approval.status = .pending) && approval.expiresAt.any fun t => decide (t ≤ now)

/-- `recoverApprovals`: a request that is decided while its step still waits. -/
def approvalStranded (approval : ApprovalRow) : Bool :=
  decide (approval.status ∈ [ApprovalStatus.approved, .rejected, .expired]) &&
    ((db.steps.get? approval.stepExecutionId).any fun row =>
      decide (row.status = .retrying) && decide (row.effectStatus = some .approvalWaiting)) &&
    (db.executions.get? approval.executionId).any fun row =>
      decide (row.status = .retrying) || decide (row.status = .queued)

/-! ## Abandoned steps -/

/-- Nobody knows whether these steps have had their effect. -/
def isAmbiguousWhenAbandoned : StepType → Bool
  | .emailNotification | .httpRequest => true
  | _ => false

/-- What is stored of the error of an abandoned step. -/
def abandonedError (stepType : StepType) : StepError where
  message := "Step abandoned after execution lease expired"
  classification := if isAmbiguousWhenAbandoned stepType then .ambiguous else .retryable

/-- The columns of a step whose run is taken to be over; `stepType` is that of the row as it was
read. -/
def abandon (stepType : StepType) (now : ℕ) (row : StepRow) : StepRow :=
  let ambiguous := isAmbiguousWhenAbandoned stepType
  { row with
    status := if ambiguous then .failed else .retrying
    effectStatus := some (if ambiguous then .ambiguous else .failed)
    errorJson := some (abandonedError stepType)
    nextRetryAt := if ambiguous then none else some now }

/-! ## Statements -/

/-- A statement of a pass. -/
inductive RecoveryStatement where
  | now
  | findExpired (now : ℕ)
  | recoverExecution (executionId : String) (now : ℕ)
  | abandonStep (row : StepRow) (now : ℕ)
  | findExpiredApprovals (now : ℕ)
  | expireApproval (approval : ApprovalRow) (now : ℕ)
  | findStranded
  | resumeApproved (executionId : String)
  | findDueRetries (now : ℕ)
  | requeue (executionId : String)
  | findPendingDispatches (grace now : ℕ)
  | findQueued (now : ℕ)
  | enqueue (id : JobId)

/-- The answers of a statement. -/
def RecoveryAnswer : RecoveryStatement → Type
  | .now | .recoverExecution .. => ℕ
  | .findExpired _ => List LoadedExecution
  | .findExpiredApprovals _ | .findStranded => List ApprovalRow
  | .expireApproval .. => Bool
  | .findDueRetries _ | .findPendingDispatches .. | .findQueued _ => List ExecutionRow
  | .abandonStep .. | .resumeApproved _ | .requeue _ | .enqueue _ => Unit

/-- Which of the matching rows a query returns, and how long ago the clock was read. -/
structure RecoveryOracle where
  lag : ℕ := 0
  executions : List String := []
  approvals : List StepId := []

/-- An execution that waits for an approval is put back into the queue. -/
def resumeExecution (executionId : String) : Database :=
  db.updateExecutions
    (fun row => decide (row.id = executionId) && decide (row.status = .retrying) &&
      decide (row.waitReason = some .approval))
    fun row => { row with status := .queued, waitReason := none }

/-- The execution rows a query returns. -/
def selected (oracle : RecoveryOracle) (limit : ℕ) (where_ : ExecutionRow → Bool) :
    List ExecutionRow :=
  (db.executions.rows.filter fun row => where_ row && decide (row.id ∈ oracle.executions)).take limit

/-- The answer of a statement and the database after it. -/
def RecoveryStatement.perform (clock : ℕ) (oracle : RecoveryOracle) (db : Database) :
    (statement : RecoveryStatement) → RecoveryAnswer statement × Database
  | .now => (clock - oracle.lag, db)
  | .findExpired t =>
    ((selected db oracle 50 (expiredRunning t)).map fun row => ⟨row, db.stepsOf row.id⟩, db)
  | .recoverExecution executionId t =>
    (db.executions.count fun row => decide (row.id = executionId) && expiredRunning t row,
      recoverLease db executionId t)
  | .abandonStep row t => ((), db.updateStep row.id (abandon row.stepType t))
  | .findExpiredApprovals t =>
    ((db.approvals.rows.filter fun approval => approvalExpired t approval &&
      decide (approval.stepExecutionId ∈ oracle.approvals)).take 100, db)
  | .expireApproval approval t =>
    -- One transaction: the request, and with it the execution.
    let pending (row : ApprovalRow) : Bool :=
      decide (row.stepExecutionId = approval.stepExecutionId) && approvalExpired t row
    if db.approvals.count pending = 0 then (false, db)
    else (true, resumeExecution
      { db with approvals := db.approvals.updateMany pending fun row =>
          { row with status := .expired } } approval.executionId)
  | .findStranded =>
    ((db.approvals.rows.filter fun approval => approvalStranded db approval &&
      decide (approval.stepExecutionId ∈ oracle.approvals)).take 100, db)
  | .resumeApproved executionId => ((), resumeExecution db executionId)
  | .findDueRetries t => (selected db oracle 100 (dueRetry db t), db)
  | .requeue executionId =>
    ((), db.updateExecutions
      (fun row => decide (row.id = executionId) &&
        (decide (row.status = .retrying) || decide (row.status = .queued)))
      fun row => { row with status := .queued })
  | .findPendingDispatches grace t => (selected db oracle 100 (pendingDispatch grace t), db)
  | .findQueued t => (selected db oracle 100 (queuedIdle db t), db)
  | .enqueue _ => ((), db)

/-! ## A pass -/

/-- A program of the reconciler. -/
abbrev Recovery (α : Type) : Type := Prog RecoveryStatement RecoveryAnswer Failure α

namespace Recovery

/-- One statement. -/
def ask (statement : RecoveryStatement) : Recovery (RecoveryAnswer statement) :=
  Prog.perform statement

def now : Recovery ℕ := ask .now
def findExpired (now : ℕ) : Recovery (List LoadedExecution) := ask (.findExpired now)
def findExpiredApprovals (now : ℕ) : Recovery (List ApprovalRow) := ask (.findExpiredApprovals now)
def expireApproval (approval : ApprovalRow) (now : ℕ) : Recovery Bool :=
  ask (.expireApproval approval now)
def findStranded : Recovery (List ApprovalRow) := ask .findStranded
def findDueRetries (now : ℕ) : Recovery (List ExecutionRow) := ask (.findDueRetries now)
def findPendingDispatches (grace now : ℕ) : Recovery (List ExecutionRow) :=
  ask (.findPendingDispatches grace now)
def findQueued (now : ℕ) : Recovery (List ExecutionRow) := ask (.findQueued now)

/-- Put an execution whose lease has run out back into the queue, and its running steps to rest. -/
def recoverOne (now : ℕ) (execution : LoadedExecution) : Recovery Unit := do
  let _ ← ask (.recoverExecution execution.row.id now)
  Prog.each (fun row => ask (.abandonStep row now))
    (execution.steps.filter fun row => decide (row.status = .running))
  ask (.enqueue (.recovery execution.row.id .expiredLeaseRecovered execution.row.runAttempt))

def recoverExpiredRunning : Recovery Unit := do
  let t ← now
  let executions ← findExpired t
  Prog.each (recoverOne t) executions

def recoverApprovals : Recovery Unit := do
  let t ← now
  let expired ← findExpiredApprovals t
  Prog.each (fun approval => do
    let won ← expireApproval approval t
    if won then ask (.enqueue (.approval approval.executionId approval.stepExecutionId))
    else pure ()) expired
  let stranded ← findStranded
  Prog.each (fun approval => do
    ask (.resumeApproved approval.executionId)
    ask (.enqueue (.approval approval.executionId approval.stepExecutionId))) stranded

def requeueDueRetries : Recovery Unit := do
  let t ← now
  let executions ← findDueRetries t
  Prog.each (fun row => do
    ask (.requeue row.id)
    ask (.enqueue (.recovery row.id .retryRecovered row.runAttempt))) executions

def recoverPendingDispatches (pendingDispatchGraceMs : ℕ) : Recovery Unit := do
  let t ← now
  let executions ← findPendingDispatches pendingDispatchGraceMs t
  Prog.each (fun row => ask (.enqueue (.dispatch row.id))) executions

def requeueQueuedExecutions : Recovery Unit := do
  let t ← now
  let executions ← findQueued t
  Prog.each (fun row => ask (.enqueue (.recovery row.id .queuedJobRecovered row.runAttempt)))
    executions

def reconcile (pendingDispatchGraceMs : ℕ) : Recovery Unit := do
  recoverExpiredRunning
  recoverApprovals
  requeueDueRetries
  recoverPendingDispatches pendingDispatchGraceMs
  requeueQueuedExecutions

end Recovery

end Flowmind
