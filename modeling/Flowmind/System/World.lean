import Flowmind.Engine.Runner
import Flowmind.Recovery.Reconciler

/-!
# The system

Workers with their jobs, their reconcilers and the API share one database.  A **world** is the
database, the time, and what every worker is in the middle of; a **step** of the world is one
statement of somebody, or the beginning or the end of a job or a pass, and steps come in any order.

* A job may be delivered at any time, to any worker that is not busy, and more than once.
* A job or pass may stop at any point: it is over, or the worker has crashed.
* The clock only moves forward; a statement may use a time that was read before.

`WorldStep` is the relation; `World.act` executes one step of a script.
-/

namespace Flowmind

open Program

/-! ## The API -/

/-- A write of the API, or of the handler of approvals. -/
inductive ApiWrite where
  /-- An execution is created: for a webhook it is pending at first, else (for a manual run, a
  schedule, an event, a replay or a test run) it is queued. -/
  | create (row : ExecutionRow) (webhook : Bool)
  /-- A webhook has put the execution into the queue. -/
  | dispatched (executionId : String)
  /-- A webhook has failed to. -/
  | dispatchFailed (executionId : String)
  /-- The same request, sent again after that, has put it into the queue. -/
  | dispatchRetried (executionId : String)
  /-- A schedule has failed to put it into the queue, and leaves that to the reconciler. -/
  | dispatchDeferred (executionId : String)
  | cancel (executionId organizationId : String)
  | cancelDescendants (rootExecutionId organizationId : String)
  | cancelTestRun (executionId : String)
  /-- The wait of a step of a test run is cut short. -/
  | skipWait (row : StepRow) (skippedAt : String)
  | requestApproval (approval : ApprovalRow)
  | decideApproval (stepExecutionId : StepId) (approved : Bool)
  | cancelApproval (stepExecutionId : StepId)

namespace ApiWrite

variable (row : ExecutionRow)

/-- An execution as it is created. -/
def created (webhook : Bool) (clock : ℕ) : ExecutionRow :=
  { row with
    status := if webhook then .pending else .queued
    lockedBy := none, lockedUntil := none, runAttempt := 0, createdAt := clock, startedAt := none
    completedAt := none, waitReason := none, outputJson := none, errorJson := none }

def enqueued : ExecutionRow := { row with status := .queued }

def enqueueFailed (clock : ℕ) (row : ExecutionRow) : ExecutionRow :=
  { row with
    status := .failed, completedAt := some clock, errorJson := some "Failed to enqueue execution" }

def enqueuedAgain : ExecutionRow :=
  { row with status := .queued, errorJson := none }

def enqueueDeferred : ExecutionRow :=
  { row with
    status := .queued
    errorJson := some "Failed to enqueue scheduled execution; recoverable by execution reconciler" }

def cancelled (clock : ℕ) (row : ExecutionRow) : ExecutionRow :=
  { row with
    status := .cancelled, completedAt := some clock, lockedBy := none, lockedUntil := none
    waitReason := none }

def testRunCancelled (clock : ℕ) (row : ExecutionRow) : ExecutionRow :=
  { row with
    status := .cancelled, completedAt := some clock, lockedBy := none, lockedUntil := none }

/-- The execution of a step whose wait is cut short. -/
def resumedEarly : ExecutionRow :=
  { row with status := .queued, lockedBy := none, lockedUntil := none }

/-- The step `row`, as it was read, without the rest of its wait. -/
def waitSkipped (row : StepRow) (skippedAt : String) (clock : ℕ) (found : StepRow) : StepRow :=
  let fields := match row.outputJson with
    | some (.obj fields) => fields
    | _ => []
  { found with
    status := .completed, completedAt := some clock, nextRetryAt := none
    effectStatus := some .succeeded
    outputJson := some (.obj (fields ++ [("skippedWait", .bool true), ("skippedAt", .str skippedAt)])) }

/-- The step may be skipped. -/
def isWait (p : Platform) (id : StepId) : Bool :=
  (p.step? id).any fun step => decide (step.type = .delay) || decide (step.type = .waitUntil)

/-- The database after a write. -/
def perform (p : Platform) (clock : ℕ) (db : Database) : ApiWrite → Option Database
  | create row webhook => db.createExecution (created row webhook clock)
  | dispatched executionId => some (db.updateExecution executionId enqueued)
  | dispatchFailed executionId =>
    some (db.updateExecutions
      (fun row => decide (row.id = executionId) &&
        (decide (row.status = .pending) || decide (row.status = .queued))) (enqueueFailed clock))
  | dispatchRetried executionId => some (db.updateExecution executionId enqueuedAgain)
  | dispatchDeferred executionId => some (db.updateExecution executionId enqueueDeferred)
  | cancel executionId organizationId =>
    some (db.updateExecutions
      (fun row => decide (row.id = executionId) &&
        decide (row.organizationId = organizationId) && row.status.isActive) (cancelled clock))
  | cancelDescendants rootExecutionId organizationId =>
    some (db.updateExecutions
      (fun row => decide (row.rootExecutionId = some rootExecutionId) &&
        decide (row.organizationId = organizationId) && row.status.isActive) (cancelled clock))
  | cancelTestRun executionId => some (db.updateExecution executionId (testRunCancelled clock))
  | skipWait row skippedAt =>
    if isWait p row.id then
      some ((db.updateStep row.id (waitSkipped row skippedAt clock)).updateExecution
        row.id.executionId resumedEarly)
    else none
  | requestApproval approval =>
    if h : db.approvals.get? approval.stepExecutionId = none then
      some { db with approvals := db.approvals.insert { approval with status := .pending } h }
    else some db
  | decideApproval stepExecutionId approved =>
    let undecided (row : ApprovalRow) : Bool := decide (row.stepExecutionId = stepExecutionId) &&
      decide (row.status = .pending) && !approvalExpired clock row
    (db.approvals.get? stepExecutionId).map fun approval =>
      if undecided approval then
        resumeExecution { db with approvals := db.approvals.updateMany undecided fun row =>
          { row with status := if approved then .approved else .rejected } } approval.executionId
      else db
  | cancelApproval stepExecutionId =>
    let pending (row : ApprovalRow) : Bool :=
      decide (row.stepExecutionId = stepExecutionId) && decide (row.status = .pending)
    some { db with approvals := db.approvals.updateMany pending fun row =>
      { row with status := .cancelled } }

end ApiWrite

/-! ## Worlds -/

/-- A job a worker is in the middle of: what is left of it, and the statements so far. -/
structure ActiveJob where
  job : Job
  program : Eng WorkflowRunResult
  log : List (Sigma Answer)

/-- After a statement. -/
def ActiveJob.next (active : ActiveJob) (program : Eng WorkflowRunResult) (statement : Statement)
    (answer : Answer statement) : ActiveJob :=
  { active with program := program, log := active.log ++ [⟨statement, answer⟩] }

/-- A pass a reconciler is in the middle of. -/
structure ActivePass where
  program : Recovery Unit
  log : List (Sigma RecoveryAnswer)

/-- After a statement. -/
def ActivePass.next (active : ActivePass) (program : Recovery Unit) (statement : RecoveryStatement)
    (answer : RecoveryAnswer statement) : ActivePass :=
  { program := program, log := active.log ++ [⟨statement, answer⟩] }

/-- The state of the system; jobs and passes by worker, each of which has one at a time. -/
structure World where
  clock : ℕ
  db : Database
  jobs : String → Option ActiveJob
  passes : String → Option ActivePass

variable {w : World} {worker : String}

namespace World

/-- Before anything has happened. -/
def initial : World where
  clock := 0
  db := ⟨.empty, .empty, .empty⟩
  jobs := fun _ => none
  passes := fun _ => none

def setJob (w : World) (worker : String) (job : Option ActiveJob) : World :=
  { w with jobs := Function.update w.jobs worker job }

def setPass (w : World) (worker : String) (pass : Option ActivePass) : World :=
  { w with passes := Function.update w.passes worker pass }

variable {job : Option ActiveJob}

@[simp] lemma jobs_setJob_self : (w.setJob worker job).jobs worker = job := Function.update_self ..

variable {other : String}

lemma jobs_setJob_of_ne (h : other ≠ worker) : (w.setJob worker job).jobs other = w.jobs other :=
  Function.update_of_ne h ..

variable {pass : Option ActivePass}

@[simp] lemma passes_setPass_self : (w.setPass worker pass).passes worker = pass := Function.update_self ..

lemma passes_setPass_of_ne (h : other ≠ worker) :
    (w.setPass worker pass).passes other = w.passes other :=
  Function.update_of_ne h ..

end World

/-- What happens in a step. -/
inductive Event where
  | tick
  | start (job : Job)
  | statement (job : Job) (statement : Statement) (answer : Answer statement)
  | stop (worker : String)
  | heartbeat (worker executionId : String)
  | startPass (worker : String)
  | passStatement (worker : String) (statement : RecoveryStatement) (answer : RecoveryAnswer statement)
  | stopPass (worker : String)
  | api (write : ApiWrite)

/-- One step. -/
inductive WorldStep (p : Platform) : World → Event → World → Prop where
  | tick {w : World} (ms : ℕ) : WorldStep p w .tick { w with clock := w.clock + ms }
  | start {w : World} {job : Job} (hidle : w.jobs job.worker = none) :
      WorldStep p w (.start job)
        (w.setJob job.worker (some ⟨job, run p job.executionId, []⟩))
  | statement {w : World} {active : ActiveJob} {statement : Statement}
      {k : Answer statement → Eng WorkflowRunResult} {answer : Answer statement} {db : Database}
      (oracle : Oracle) (hactive : w.jobs active.job.worker = some active)
      (hprogram : active.program = Prog.ask statement k)
      (hperform : statement.perform p active.job w.clock oracle w.db = some (answer, db)) :
      WorldStep p w (.statement active.job statement answer)
        ({ w with db := db }.setJob active.job.worker
          (some (active.next (k answer) statement answer)))
  | stop {w : World} (worker : String) : WorldStep p w (.stop worker) (w.setJob worker none)
  | heartbeat {w : World} (worker executionId : String) {now : ℕ} (hnow : now ≤ w.clock) :
      WorldStep p w (.heartbeat worker executionId)
        { w with db := (Lease.heartbeat w.db p.leaseDurationMs worker executionId now).2 }
  | startPass {w : World} {worker : String} (hidle : w.passes worker = none) :
      WorldStep p w (.startPass worker)
        (w.setPass worker (some ⟨Recovery.reconcile p.pendingDispatchGraceMs, []⟩))
  | passStatement {w : World} {worker : String} {active : ActivePass}
      {statement : RecoveryStatement} {k : RecoveryAnswer statement → Recovery Unit}
      {answer : RecoveryAnswer statement} {db : Database} (oracle : RecoveryOracle)
      (hactive : w.passes worker = some active) (hprogram : active.program = Prog.ask statement k)
      (hperform : statement.perform w.clock oracle w.db = (answer, db)) :
      WorldStep p w (.passStatement worker statement answer)
        ({ w with db := db }.setPass worker (some (active.next (k answer) statement answer)))
  | stopPass {w : World} (worker : String) :
      WorldStep p w (.stopPass worker) (w.setPass worker none)
  | api {w : World} {write : ApiWrite} {db : Database}
      (hperform : write.perform p w.clock w.db = some db) :
      WorldStep p w (.api write) { w with db := db }

variable {p : Platform} {w' : World} {statement : Statement} {answer : Answer statement}

/-- A statement is made by the job of a worker. -/
lemma WorldStep.of_statement {job : Job}
    (hstep : WorldStep p w (.statement job statement answer) w') :
    ∃ active k oracle, w.jobs job.worker = some active ∧ active.job = job ∧
      active.program = Prog.ask statement k ∧
      statement.perform p job w.clock oracle w.db = some (answer, w'.db) := by
  cases hstep with
  | statement oracle hactive hprogram hperform =>
    exact ⟨_, _, oracle, hactive, rfl, hprogram, hperform⟩

/-- It goes on with the answer. -/
lemma WorldStep.next_of_statement {job : Job}
    (hstep : WorldStep p w (.statement job statement answer) w') :
    ∃ active program, w.jobs job.worker = some active ∧ active.job = job ∧
      w'.jobs job.worker = some (active.next program statement answer) := by
  cases hstep with
  | statement oracle hactive => exact ⟨_, _, hactive, rfl, World.jobs_setJob_self⟩

variable {event : Event} {active' : ActiveJob}

section

variable (hstep : WorldStep p w event w')
include hstep

/-- Where a job comes from that is there after a step. -/
lemma WorldStep.jobs_cases (h : w'.jobs worker = some active') :
    (w.jobs worker = some active' ∧
      ∀ job statement answer, event = .statement job statement answer → job.worker ≠ worker) ∨
    (∃ job, event = .start job ∧ job.worker = worker ∧
      active' = ⟨job, run p job.executionId, []⟩ ∧ w'.db = w.db) ∨
    ∃ active statement k answer oracle, w.jobs worker = some active ∧ active.job.worker = worker ∧
      event = .statement active.job statement answer ∧ active.program = Prog.ask statement k ∧
      statement.perform p active.job w.clock oracle w.db = some (answer, w'.db) ∧
      active' = active.next (k answer) statement answer := by
  cases hstep with
  | @start job hidle =>
    by_cases hworker : worker = job.worker
    · subst hworker
      rw [World.jobs_setJob_self] at h
      exact .inr (.inl ⟨job, rfl, rfl, (Option.some.inj h).symm, rfl⟩)
    · rw [World.jobs_setJob_of_ne hworker] at h
      exact .inl ⟨h, by simp⟩
  | @statement active statement k answer db oracle hactive hprogram hperform =>
    by_cases hworker : worker = active.job.worker
    · subst hworker
      rw [World.jobs_setJob_self] at h
      exact .inr (.inr ⟨active, statement, k, answer, oracle, hactive, rfl, rfl, hprogram, hperform,
        (Option.some.inj h).symm⟩)
    · rw [World.jobs_setJob_of_ne hworker] at h
      refine .inl ⟨h, fun job _ _ heq => ?_⟩
      rw [← (Event.statement.inj heq).1]
      exact fun heq' => hworker heq'.symm
  | stop stopped =>
    by_cases hworker : worker = stopped
    · subst hworker
      rw [World.jobs_setJob_self] at h
      cases h
    · rw [World.jobs_setJob_of_ne hworker] at h
      exact .inl ⟨h, by simp⟩
  | _ => exact .inl ⟨h, by simp⟩

/-- Where the job of a worker comes from. -/
lemma WorldStep.job_cases (h : w'.jobs worker = some active') :
    (∃ active, w.jobs worker = some active ∧ active.job = active'.job) ∨
      ∃ job, event = .start job ∧ job.worker = worker ∧ active'.job = job := by
  rcases hstep.jobs_cases h with ⟨hactive, -⟩ | ⟨job, hevent, hworker, rfl, -⟩ |
    ⟨active, statement, k, answer, oracle, hactive, -, -, -, -, rfl⟩
  · exact .inl ⟨active', hactive, rfl⟩
  · exact .inr ⟨job, hevent, hworker, rfl⟩
  · exact .inl ⟨active, hactive, rfl⟩

/-- What becomes of the job of a worker. -/
lemma WorldStep.jobs_of_some {active : ActiveJob} (h : w.jobs worker = some active) :
    w'.jobs worker = some active ∨ event = .stop worker ∨
    ∃ statement k answer oracle, active.job.worker = worker ∧
      event = .statement active.job statement answer ∧ active.program = Prog.ask statement k ∧
      statement.perform p active.job w.clock oracle w.db = some (answer, w'.db) ∧
      w'.jobs worker = some (active.next (k answer) statement answer) := by
  cases hstep with
  | start hidle =>
    refine .inl ((World.jobs_setJob_of_ne fun hworker => ?_).trans h)
    rw [← hworker, h] at hidle
    cases hidle
  | @statement own statement k answer db oracle hactive hprogram hperform =>
    by_cases hworker : worker = own.job.worker
    · subst hworker
      cases h.symm.trans hactive
      exact .inr (.inr ⟨statement, k, answer, oracle, rfl, rfl, hprogram, hperform,
        World.jobs_setJob_self⟩)
    · exact .inl ((World.jobs_setJob_of_ne hworker).trans h)
  | stop stopped =>
    by_cases hworker : worker = stopped
    · exact .inr (.inl (by rw [hworker]))
    · exact .inl ((World.jobs_setJob_of_ne hworker).trans h)
  | _ => exact .inl h

/-- The same for a pass. -/
lemma WorldStep.passes_cases {active' : ActivePass} (h : w'.passes worker = some active') :
    (w.passes worker = some active' ∧ event ≠ .startPass worker ∧
      ∀ statement answer, event ≠ .passStatement worker statement answer) ∨
    (event = .startPass worker ∧
      active' = ⟨Recovery.reconcile p.pendingDispatchGraceMs, []⟩) ∨
    ∃ active statement k answer oracle, w.passes worker = some active ∧
      event = .passStatement worker statement answer ∧ active.program = Prog.ask statement k ∧
      statement.perform w.clock oracle w.db = (answer, w'.db) ∧ w'.clock = w.clock ∧
      active' = active.next (k answer) statement answer := by
  cases hstep with
  | @startPass started hidle =>
    by_cases hworker : worker = started
    · subst hworker
      rw [World.passes_setPass_self] at h
      exact .inr (.inl ⟨rfl, (Option.some.inj h).symm⟩)
    · rw [World.passes_setPass_of_ne hworker] at h
      exact .inl ⟨h, by simpa using fun heq => hworker heq.symm, by simp⟩
  | @passStatement own active statement k answer db oracle hactive hprogram hperform =>
    by_cases hworker : worker = own
    · subst hworker
      rw [World.passes_setPass_self] at h
      exact .inr (.inr ⟨active, statement, k, answer, oracle, hactive, rfl, hprogram, hperform, rfl,
        (Option.some.inj h).symm⟩)
    · rw [World.passes_setPass_of_ne hworker] at h
      refine .inl ⟨h, by simp, fun _ _ heq => ?_⟩
      exact hworker (Event.passStatement.inj heq).1.symm
  | stopPass stopped =>
    by_cases hworker : worker = stopped
    · subst hworker
      rw [World.passes_setPass_self] at h
      cases h
    · rw [World.passes_setPass_of_ne hworker] at h
      exact .inl ⟨h, by simp, by simp⟩
  | _ => exact .inl ⟨h, by simp, by simp⟩

lemma WorldStep.clock_le : w.clock ≤ w'.clock := by
  cases hstep with
  | tick ms => exact Nat.le_add_right _ _
  | _ => exact le_rfl

end

/-! ## Scripts -/

/-- A step of a script, with everything that is left open by the world. -/
inductive Action where
  | tick (ms : ℕ)
  | start (job : Job)
  | statement (worker : String) (oracle : Oracle)
  | stop (worker : String)
  | heartbeat (worker executionId : String) (lag : ℕ)
  | startPass (worker : String)
  | passStatement (worker : String) (oracle : RecoveryOracle)
  | stopPass (worker : String)
  | api (write : ApiWrite)

namespace World

variable (p : Platform)

/-- Execute one step of a script. -/
def act (w : World) : Action → Option (Event × World)
  | .tick ms => some (.tick, { w with clock := w.clock + ms })
  | .start job =>
    match w.jobs job.worker with
    | none => some (.start job, w.setJob job.worker (some ⟨job, run p job.executionId, []⟩))
    | some _ => none
  | .statement worker oracle =>
    match w.jobs worker with
    | some ⟨job, Prog.ask statement k, log⟩ =>
      if worker = job.worker then
        (statement.perform p job w.clock oracle w.db).map fun (answer, db) =>
          (.statement job statement answer, { w with db := db }.setJob job.worker
            (some (ActiveJob.next ⟨job, Prog.ask statement k, log⟩ (k answer) statement answer)))
      else none
    | _ => none
  | .stop worker => some (.stop worker, w.setJob worker none)
  | .heartbeat worker executionId lag =>
    some (.heartbeat worker executionId, { w with
      db := (Lease.heartbeat w.db p.leaseDurationMs worker executionId (w.clock - lag)).2 })
  | .startPass worker =>
    match w.passes worker with
    | none => some (.startPass worker,
        w.setPass worker (some ⟨Recovery.reconcile p.pendingDispatchGraceMs, []⟩))
    | some _ => none
  | .passStatement worker oracle =>
    match w.passes worker with
    | some ⟨Prog.ask statement k, log⟩ =>
      let result := statement.perform w.clock oracle w.db
      some (.passStatement worker statement result.1, { w with db := result.2 }.setPass worker
        (some (ActivePass.next ⟨Prog.ask statement k, log⟩ (k result.1) statement result.1)))
    | _ => none
  | .stopPass worker => some (.stopPass worker, w.setPass worker none)
  | .api write => (write.perform p w.clock w.db).map fun db => (.api write, { w with db := db })

variable {p}

lemma act_sound {action : Action} (h : w.act p action = some (event, w')) : WorldStep p w event w' := by
  cases action with
  | tick ms =>
    cases h
    exact .tick ms
  | start job =>
    simp only [act] at h
    split at h
    case h_1 hidle =>
      cases h
      exact .start hidle
    case h_2 => cases h
  | statement worker oracle =>
    simp only [act] at h
    split at h
    case h_1 job statement k log hactive =>
      split at h
      case isTrue hworker =>
        subst hworker
        rw [Option.map_eq_some_iff] at h
        obtain ⟨⟨answer, db⟩, hperform, ⟨⟩⟩ := h
        exact @WorldStep.statement p w ⟨job, _, log⟩ _ k _ _ oracle hactive rfl hperform
      case isFalse => cases h
    case h_2 => cases h
  | stop worker =>
    cases h
    exact .stop worker
  | heartbeat worker executionId lag =>
    cases h
    exact .heartbeat worker executionId (Nat.sub_le _ _)
  | startPass worker =>
    simp only [act] at h
    split at h
    case h_1 hidle =>
      cases h
      exact .startPass hidle
    case h_2 => cases h
  | passStatement worker oracle =>
    simp only [act] at h
    split at h
    case h_1 statement k log hactive =>
      cases h
      exact .passStatement oracle hactive rfl rfl
    case h_2 => cases h
  | stopPass worker =>
    cases h
    exact .stopPass worker
  | api write =>
    simp only [act, Option.map_eq_some_iff] at h
    obtain ⟨db, hperform, ⟨⟩⟩ := h
    exact .api hperform

/-- A script whose events and last state have a property: there is a run with it. -/
lemma exists_run {actions : List Action} {last : List Event × World → Prop} [DecidablePred last]
    (h : (script (act p) w actions).any (fun done => last done) = true) :
    ∃ events w', Run (WorldStep p) w events w' ∧ last (events, w') :=
  Program.exists_run (act p) (fun _ _ _ _ => act_sound) h

/-- One more step. -/
lemma exists_step {action : Action} {last : Event × World → Prop} [DecidablePred last]
    (h : (w.act p action).any (fun done => last done) = true) :
    ∃ event w', WorldStep p w event w' ∧ last (event, w') :=
  Program.exists_step (act p) (fun _ _ _ _ => act_sound) h

/-- Only this worker has a job. -/
def Single (w : World) (worker : String) : Prop :=
  ∀ other active, w.jobs other = some active → other = worker

end World

/-- No other worker begins. -/
def Event.startsOn (worker : String) : Event → Bool
  | .start job => decide (job.worker = worker)
  | _ => true

lemma World.Single.next {p : Platform} (h : w.Single worker) (hstep : WorldStep p w event w')
    (hstarts : event.startsOn worker = true) : w'.Single worker := by
  intro other active' hactive'
  rcases hstep.job_cases hactive' with ⟨active, hactive, -⟩ | ⟨job, rfl, rfl, -⟩
  · exact h other active hactive
  · exact of_decide_eq_true hstarts

/-- A script of one worker whose steps meet a condition: there is a run of the steps that one worker
takes. -/
lemma World.Single.exists_run {p : Platform} {step : World → Event → World → Prop}
    (good : World → Event → Prop) [∀ w, DecidablePred (good w)]
    (hgood : ∀ w event w', w.Single worker → WorldStep p w event w' → good w event →
      step w event w' ∧ event.startsOn worker = true) (h : w.Single worker) {actions : List Action}
    {last : List Event × World → Prop} [DecidablePred last]
    (hscript : (script (actIf (World.act p) good) w actions).any (fun done => last done) = true) :
    ∃ events w', Run step w events w' ∧ last (events, w') := by
  have hact : ∀ w action event w', actIf (World.act p) good w action = some (event, w') →
      WorldStep p w event w' ∧ good w event := by
    intro w action event w' hact
    obtain ⟨hact, hguard⟩ := Option.filter_eq_some_iff.mp hact
    exact ⟨World.act_sound hact, of_decide_eq_true hguard⟩
  obtain ⟨events, w', hrun, hlast⟩ := Program.exists_run _ hact hscript
  refine ⟨events, w', (hrun.mono_invariant (fun w => w.Single worker) (fun _ => True)
    (fun w event w' hsingle _ hstep => ?_) h fun _ _ => trivial).1, hlast⟩
  obtain ⟨hstep', hstarts⟩ := hgood w event w' hsingle hstep.1 hstep.2
  exact ⟨hstep', hsingle.next hstep.1 hstarts⟩

lemma World.single_initial : World.initial.Single worker := fun _ _ h => by cases h

/-! ## What is known of a job -/

/-- A job as it can be found: it has the statements of its log behind it. -/
structure ActiveJob.Valid (p : Platform) (worker : String) (active : ActiveJob) : Prop where
  worker_eq : active.job.worker = worker
  reaches : Reaches (run p active.job.executionId) active.log active.program
  performed : ∀ answered ∈ active.log, ∃ clock oracle db db',
    answered.1.perform p active.job clock oracle db = some (answered.2, db')

/-- The same for a pass. -/
structure ActivePass.Valid (p : Platform) (active : ActivePass) : Prop where
  reaches : Reaches (Recovery.reconcile p.pendingDispatchGraceMs) active.log active.program
  performed : ∀ answered ∈ active.log, ∃ clock oracle db db',
    answered.1.perform clock oracle db = (answered.2, db')

section Valid

variable {p : Platform} {events : List Event} {active : ActiveJob} {clock : ℕ} {db db' : Database}

lemma ActiveJob.Valid.next {k : Answer statement → Eng WorkflowRunResult} {oracle : Oracle}
    (h : active.Valid p worker) (hprogram : active.program = Prog.ask statement k)
    (hperform : statement.perform p active.job clock oracle db = some (answer, db')) :
    (active.next (k answer) statement answer).Valid p worker where
  worker_eq := h.worker_eq
  reaches := .snoc (hprogram ▸ h.reaches) answer
  performed := List.forall_mem_append.mpr
    ⟨h.performed, List.forall_mem_singleton.mpr ⟨clock, oracle, db, db', hperform⟩⟩

lemma ActivePass.Valid.next {active : ActivePass} {statement : RecoveryStatement}
    {k : RecoveryAnswer statement → Recovery Unit} {answer : RecoveryAnswer statement}
    {oracle : RecoveryOracle} (h : active.Valid p)
    (hprogram : active.program = Prog.ask statement k)
    (hperform : statement.perform clock oracle db = (answer, db')) :
    (active.next (k answer) statement answer).Valid p where
  reaches := .snoc (hprogram ▸ h.reaches) answer
  performed := List.forall_mem_append.mpr
    ⟨h.performed, List.forall_mem_singleton.mpr ⟨clock, oracle, db, db', hperform⟩⟩

/-- All jobs and passes are as they can be found. -/
structure World.Valid (p : Platform) (w : World) : Prop where
  jobs : ∀ {worker : String} {active : ActiveJob}, w.jobs worker = some active →
    active.Valid p worker
  passes : ∀ {worker : String} {active : ActivePass}, w.passes worker = some active →
    active.Valid p

lemma WorldStep.valid (h : w.Valid p) (hstep : WorldStep p w event w') : w'.Valid p where
  jobs hactive := by
    rcases hstep.jobs_cases hactive with ⟨hold, -⟩ | ⟨job, -, rfl, rfl, -⟩ |
      ⟨active, statement, k, answer, oracle, hold, -, -, hprogram, hperform, rfl⟩
    · exact h.jobs hold
    · exact ⟨rfl, .nil, by simp⟩
    · exact (h.jobs hold).next hprogram hperform
  passes hactive := by
    rcases hstep.passes_cases hactive with ⟨hold, -⟩ | ⟨-, rfl⟩ |
      ⟨active, statement, k, answer, oracle, hold, -, hprogram, hperform, -, rfl⟩
    · exact h.passes hold
    · exact ⟨.nil, by simp⟩
    · exact (h.passes hold).next hprogram hperform

lemma valid_initial : World.initial.Valid p where
  jobs h := by cases h
  passes h := by cases h

lemma WorldRun.valid (hrun : Run (WorldStep p) World.initial events w) : w.Valid p :=
  hrun.invariant (fun _ w => w.Valid p) valid_initial fun _ _ _ _ _ h hstep => hstep.valid h

/-- The job of a worker was delivered to it. -/
lemma WorldRun.start_mem (hrun : Run (WorldStep p) World.initial events w)
    (hactive : w.jobs worker = some active) : Event.start active.job ∈ events := by
  refine hrun.invariant (fun events w => ∀ worker active, w.jobs worker = some active →
    Event.start active.job ∈ events) (fun _ _ h => by cases h) ?_ worker active hactive
  intro events w event w' _ ih hstep worker active' hactive'
  rw [List.mem_append, List.mem_singleton]
  rcases hstep.job_cases hactive' with ⟨active, hactive, hjob⟩ | ⟨job, hevent, -, hjob⟩
  · exact .inl (hjob ▸ ih worker active hactive)
  · exact .inr (hjob ▸ hevent.symm)

variable {σ : Type*} {exc : σ → Failure → Prop}

/-- What is left of a job keeps to the protocols that a whole run of an execution keeps to. -/
lemma ActiveJob.Valid.meets {P : Protocol Statement Answer σ} {init : σ}
    {post : σ → WorkflowRunResult → Prop} (h : active.Valid p worker)
    (hmeets : Meets P post exc (run p active.job.executionId) init)
    (hrely : ∀ {statement answer clock oracle db db'},
      Statement.perform p active.job clock oracle db statement = some (answer, db') →
      P.rely statement answer) : Meets P post exc active.program (P.after init active.log) :=
  hmeets.reaches h.reaches fun answered hmem =>
    have ⟨_, _, _, _, hperform⟩ := h.performed answered hmem
    hrely hperform

/-- The same for a pass. -/
lemma ActivePass.Valid.meets {P : Protocol RecoveryStatement RecoveryAnswer σ} {init : σ}
    {post : σ → Unit → Prop} {active : ActivePass} (h : active.Valid p)
    (hmeets : Meets P post exc (Recovery.reconcile p.pendingDispatchGraceMs) init)
    (hrely : ∀ {statement answer clock oracle db db'},
      RecoveryStatement.perform clock oracle db statement = (answer, db') →
      P.rely statement answer) : Meets P post exc active.program (P.after init active.log) :=
  hmeets.reaches h.reaches fun answered hmem =>
    have ⟨_, _, _, _, hperform⟩ := h.performed answered hmem
    hrely hperform

end Valid

/-! ## A platform for scripts -/

/-- The job of a worker on the execution `"run"`. -/
def trialJob (worker : String) : Job where
  worker := worker
  executionId := "run"
  organizationId := "org"

/-- The execution `"run"` is created and the worker gets it. -/
def trialStart (worker : String) : List Action :=
  [.api (.create (newExecution "run" "org" "workflow" "version" .queued 0) false),
    .start (trialJob worker)]

/-- The next statements of a worker. -/
def statements (worker : String) (count : ℕ) (oracle : Oracle := {}) : List Action :=
  List.replicate count (.statement worker oracle)

def callConfig : Json :=
  .obj [("workflowId", .str "callee"), ("versionPolicy", .str "PUBLISHED")]

/-- A workflow that calls another one. -/
def callWorkflow : WorkflowDefinition where
  json := .obj [("workflowDefinitionSchemaVersion", .num 2),
    ("graph", .obj [("entryStepKey", .str "call"), ("edges", .arr [])])]
  steps := ⟨[⟨"call", .executeWorkflow, 1, callConfig, none⟩], List.nodup_singleton _⟩

/-- The other one makes a request. -/
def callPlatform : Platform :=
  { trialPlatform callWorkflow with
    definition := fun id => if id = "child" then singleStep .httpRequest else callWorkflow }

/-- The step of `singleStep`. -/
def onlyStep : StepId := ⟨"run", "only", rootPath⟩

/-- Worker `a` begins the step and its lease runs out before it is done. -/
def leaseRunsOut : List Action := trialStart "a" ++ statements "a" 17 ++ [.tick 20]

/-- The status of a step execution. -/
def stepStatus (w : World) (id : StepId) : Option StepExecutionStatus :=
  (w.db.steps.get? id).map (·.status)

end Flowmind
