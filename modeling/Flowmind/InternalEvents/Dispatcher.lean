import Flowmind.InternalEvents.Emitter
import Flowmind.Program.Crew

/-!
# The dispatcher of internal events

Every worker process runs a dispatcher.  It claims a batch of events for the time of a lease, and
for each of them finds the triggers that match (`process`), records a delivery for each and creates
its execution (`materialize`).  An event whose processing fails is tried again later, up to ten
times (`failProcessing`).  When the lease runs out another dispatcher may claim the event while the
first one is still at work.

Each statement may fail, with an error of the database or the queue; it then has changed nothing.
-/

namespace Flowmind.InternalEvents

open Program Store

/-! ## Statements -/

/-- What is thrown: an error that no further attempt can mend, a violation of a unique index, or
another one. -/
inductive DispatchError where
  | invalidEnvelope
  | uniqueConstraint
  | other (code : String)
deriving DecidableEq, Repr

/-- `permanent`. -/
def DispatchError.permanent : DispatchError → Bool
  | invalidEnvelope => true
  | uniqueConstraint | other _ => false

def DispatchError.code : DispatchError → String
  | invalidEnvelope => "invalid_envelope"
  | uniqueConstraint => "p2002"
  | other code => code

/-- A delivery with its trigger, the workflow of that and its active version. -/
structure LoadedDelivery where
  row : DeliveryRow
  trigger : EventTriggerRow
  workflow : WorkflowRow
  activeVersion : Option WorkflowVersionRow

/-- What the execution for a delivery is created from. -/
structure Materialization where
  delivery : DeliveryId
  organizationId : String
  workflowId : String
  workflowVersionId : String
  rootEventId : String
  causationId : String
  depth : ℕ
deriving DecidableEq, Repr

/-- A statement of a dispatcher. -/
inductive DispatchStatement where
  | claim
  | findEvent (id : String)
  | materializeNotifications (id : String)
  | findTriggers (organizationId : String) (eventType : EventType)
  | recordMatches (id organizationId : String) (triggerIds : List String)
  | findPending (id organizationId : String)
  | skipDelivery (delivery : DeliveryId)
  | createExecution (new : Materialization)
  | findExecution (delivery : DeliveryId) (organizationId : String)
  | adoptExecution (delivery : DeliveryId) (executionId : String)
  | enqueue (executionId : String)
  | countPending (id : String)
  | finishEvent (id : String)
  | isDestroyed
  | findFailed (id : String)
  /-- The clock, and a random part. -/
  | now
  | failEvent (id : String) (dead : Bool) (next : Option ℕ) (organizationId : String)
      (eventType : EventType) (code : String)

/-- What a statement returns. -/
def DispatchValue : DispatchStatement → Type
  | .claim => List String
  | .findEvent _ | .findFailed _ => Option EventRow
  | .findTriggers .. => List EventTriggerRow
  | .findPending .. => List LoadedDelivery
  | .createExecution _ => String
  | .findExecution .. => Option String
  | .countPending _ | .now => ℕ
  | .isDestroyed => Bool
  | .materializeNotifications _ | .recordMatches .. | .skipDelivery _ | .adoptExecution ..
  | .enqueue _ | .finishEvent _ | .failEvent .. => Unit

/-- A statement returns or throws. -/
abbrev DispatchAnswer (statement : DispatchStatement) : Type :=
  Except DispatchError (DispatchValue statement)

/-- What is up to the surroundings: whether a statement fails, which events a claim takes, the ids
of new rows, random numbers, and whether the process is about to end. -/
structure DispatchOracle where
  error : Option DispatchError := none
  events : List String := []
  id : String := ""
  random : ℕ := 0
  destroyed : Bool := false

instance : Inhabited DispatchOracle := ⟨{}⟩

/-- The settings, within the bounds of `numberEnv`. -/
structure DispatchSettings where
  batch : ℕ
  leaseMs : ℕ
  batch_pos : 1 ≤ batch
  leaseMs_pos : 5000 ≤ leaseMs

/-! ## What a statement does -/

/-- The event may be claimed. -/
def EventRow.isClaimable (now : ℕ) (row : EventRow) : Bool :=
  !row.status.isFinished && row.nextAttemptAt.all (fun t => decide (t ≤ now)) &&
    row.lockedUntil.all fun t => decide (t < now)

/-- The columns of a claimed event. -/
def EventRow.claimed (now leaseMs dispatcher : ℕ) (row : EventRow) : EventRow :=
  { row with
    status := .processing
    lockedBy := some dispatcher
    lockedUntil := some (now + leaseMs)
    attempts := row.attempts + 1 }

variable (settings : DispatchSettings) (s : Data)

/-- The events that a claim takes. -/
def Data.claimable (wanted : List String) : List String :=
  (((s.events.rows.filter fun row => row.isClaimable s.clock && decide (row.id ∈ wanted)).map
    (·.id)).take settings.batch)

/-- Change the row of an event. -/
def Data.updateEvent (where_ : EventRow → Bool) (set : EventRow → EventRow)
    (hset : ∀ row, (set row).id = row.id := by intro _; rfl) : Data :=
  { s with events := s.events.updateMany where_ set hset }

def Data.claim (dispatcher : ℕ) (wanted : List String) : Data :=
  s.updateEvent (fun row => decide (row.id ∈ s.claimable settings wanted))
    (EventRow.claimed s.clock settings.leaseMs dispatcher)

/-- A new delivery. -/
def newDelivery (organizationId internalEventId triggerId : String) : DeliveryRow where
  id := ⟨internalEventId, triggerId⟩
  organizationId := organizationId
  status := .pending
  executionId := none

/-- `createMany` of deliveries, without those that are there. -/
def addDeliveries (organizationId internalEventId : String) (triggerIds : List String)
    (deliveries : Table DeliveryRow DeliveryRow.id) : Table DeliveryRow DeliveryRow.id :=
  triggerIds.foldl
    (fun table triggerId => table.insertNew (newDelivery organizationId internalEventId triggerId))
    deliveries

/-- The columns of an event whose triggers are known. -/
def EventRow.matched (now : ℕ) (row : EventRow) : EventRow :=
  { row with matchingCompletedAt := some now }

/-- The deliveries of an event, and that its triggers are known. -/
def Data.recordMatches (id organizationId : String) (triggerIds : List String) : Data :=
  { s.updateEvent (fun row => decide (row.id = id)) (EventRow.matched s.clock) with
    deliveries := addDeliveries organizationId id triggerIds s.deliveries }

/-- A delivery with what belongs to it. -/
def Data.loadDelivery (row : DeliveryRow) : Option LoadedDelivery := do
  let trigger ← s.triggers.get? row.id.triggerId
  let workflow ← s.workflows.get? trigger.workflowId
  some ⟨row, trigger, workflow, workflow.activeVersionId.bind s.versions.get?⟩

/-- Set the columns of a delivery, if it satisfies a condition. -/
def Data.updateDelivery (delivery : DeliveryId) (where_ : DeliveryRow → Bool)
    (set : DeliveryRow → DeliveryRow) (hset : ∀ row, (set row).id = row.id := by intro _; rfl) :
    Data :=
  { s with
    deliveries := s.deliveries.updateMany (fun row => decide (row.id = delivery) && where_ row) set
      hset }

/-- The columns of a delivery whose trigger is not active any more. -/
def DeliveryRow.skipped (row : DeliveryRow) : DeliveryRow := { row with status := .skipped }

/-- The columns of a delivery with an execution. -/
def DeliveryRow.materialized (executionId : String) (row : DeliveryRow) : DeliveryRow :=
  { row with status := .materialized, executionId := some executionId }

/-- The delivery is still pending. -/
def DeliveryRow.isPending (row : DeliveryRow) : Bool := decide (row.status = .pending)

/-- The execution for a delivery. -/
def Materialization.execution (new : Materialization) (id : String) : CausedExecution where
  id := id
  organizationId := new.organizationId
  workflowId := new.workflowId
  workflowVersionId := some new.workflowVersionId
  parentExecutionId := none
  eventDeliveryId := some new.delivery
  eventRootId := some new.rootEventId
  eventCausationId := some new.causationId
  eventDepth := new.depth

/-- The transaction that creates the execution for a delivery. -/
def Data.createExecution (new : Materialization) (id : String)
    (hfresh : s.executions.get? (new.execution id).id = none) : Data :=
  { s.updateDelivery new.delivery (fun _ => true) (DeliveryRow.materialized id) with
    executions := s.executions.insert (new.execution id) hfresh }

/-- The columns of an event that is processed. -/
def EventRow.processed (row : EventRow) : EventRow :=
  { row with status := .processed, lockedBy := none, lockedUntil := none }

/-- The columns of an event whose processing has failed. -/
def EventRow.failed (dead : Bool) (next : Option ℕ) (row : EventRow) : EventRow :=
  { row with
    status := if dead then .dead else .pending
    nextAttemptAt := if dead then none else next
    lockedBy := none
    lockedUntil := none }

variable (id : String)

/-- The data of the event about a dead one. -/
def deadData (eventType : EventType) (code : String) : Json :=
  .obj [("internalEventId", .str id), ("eventType", .str eventType.name), ("errorCode", .str code)]

/-- The transaction of `fail`: a dead event is announced, unless it is an announcement itself. -/
def Data.failEvent (dead : Bool) (next : Option ℕ) (organizationId : String)
    (eventType : EventType) (code diagnosticId : String) : Option Data :=
  let s' := s.updateEvent (fun row => decide (row.id = id)) (EventRow.failed dead next)
  if dead && decide (eventType ≠ .eventTriggerFailed) then
    s'.addDiagnostic diagnosticId organizationId .eventTriggerFailed (deadData id eventType code)
  else some s'

/-- What a statement returns, and the data after it, when it does not fail. -/
def DispatchStatement.succeed (dispatcher : ℕ) (oracle : DispatchOracle) (s : Data) :
    (statement : DispatchStatement) → Option (DispatchAnswer statement × Data)
  | .claim => some (.ok (s.claimable settings oracle.events),
      s.claim settings dispatcher oracle.events)
  | .findEvent id | .findFailed id => some (.ok (s.events.get? id), s)
  | .materializeNotifications _ | .enqueue _ => some (.ok (), s)
  | .findTriggers organizationId eventType =>
    some (.ok (s.triggers.rows.filter fun row =>
      decide (row.organizationId = organizationId) && decide (row.eventType = eventType) &&
        row.enabled && row.deletedAt.isNone), s)
  | .recordMatches id organizationId triggerIds =>
    some (.ok (), s.recordMatches id organizationId triggerIds)
  | .findPending id organizationId =>
    some (.ok ((s.deliveries.rows.filter fun row =>
      decide (row.id.internalEventId = id) && decide (row.organizationId = organizationId) &&
        row.isPending).filterMap s.loadDelivery), s)
  | .skipDelivery delivery =>
    some (.ok (), s.updateDelivery delivery DeliveryRow.isPending DeliveryRow.skipped)
  | .createExecution new =>
    if s.executions.rows.any fun row => decide (row.eventDeliveryId = some new.delivery) then
      some (.error .uniqueConstraint, s)
    else if s.deliveries.get? new.delivery = none then some (.error (.other "p2025"), s)
    else if hfresh : s.executions.get? (new.execution oracle.id).id = none then
      some (.ok oracle.id, s.createExecution new oracle.id hfresh)
    else none
  | .findExecution delivery organizationId =>
    some (.ok ((s.executions.rows.find? fun row =>
      decide (row.eventDeliveryId = some delivery) &&
        decide (row.organizationId = organizationId)).map (·.id)), s)
  | .adoptExecution delivery executionId =>
    some (.ok (), s.updateDelivery delivery DeliveryRow.isPending
      (DeliveryRow.materialized executionId))
  | .countPending id =>
    some (.ok (s.deliveries.count fun row =>
      decide (row.id.internalEventId = id) && row.isPending), s)
  | .finishEvent id =>
    some (.ok (), s.updateEvent (fun row => decide (row.id = id)) EventRow.processed)
  | .isDestroyed => some (.ok oracle.destroyed, s)
  | .now => some (.ok (s.clock + oracle.random % 500), s)
  | .failEvent id dead next organizationId eventType code =>
    (s.failEvent id dead next organizationId eventType code oracle.id).map fun s' =>
      (.ok (), s')

/-- The statement asks the database or the queue. -/
def DispatchStatement.isFallible : DispatchStatement → Bool
  | .isDestroyed | .now => false
  | _ => true

/-- The answer of a statement and the data after it. -/
def DispatchStatement.perform (dispatcher : ℕ) (oracle : DispatchOracle) (s : Data)
    (statement : DispatchStatement) : Option (DispatchAnswer statement × Data) :=
  match oracle.error with
  | some error =>
    if statement.isFallible then some (.error error, s)
    else statement.succeed settings dispatcher oracle s
  | none => statement.succeed settings dispatcher oracle s

/-! ## The dispatcher -/

/-- A program of the dispatcher. -/
abbrev Dispatch (α : Type) : Type := Prog DispatchStatement DispatchAnswer DispatchError α

namespace Dispatch

/-- One statement; what it throws is thrown. -/
def ask (statement : DispatchStatement) : Dispatch (DispatchValue statement) :=
  (Prog.perform statement).bind Prog.ofExcept

def claim : Dispatch (List String) := ask .claim
def findEvent (id : String) : Dispatch (Option EventRow) := ask (.findEvent id)
def findTriggers (organizationId : String) (eventType : EventType) :
    Dispatch (List EventTriggerRow) :=
  ask (.findTriggers organizationId eventType)
def findPending (id organizationId : String) : Dispatch (List LoadedDelivery) :=
  ask (.findPending id organizationId)
def createExecution (new : Materialization) : Dispatch String := ask (.createExecution new)
def findExecution (delivery : DeliveryId) (organizationId : String) : Dispatch (Option String) :=
  ask (.findExecution delivery organizationId)
def countPending (id : String) : Dispatch ℕ := ask (.countPending id)
def isDestroyed : Dispatch Bool := ask .isDestroyed
def findFailed (id : String) : Dispatch (Option EventRow) := ask (.findFailed id)
def now : Dispatch ℕ := ask .now

end Dispatch

open Dispatch

/-- The version that is run, if the trigger, its workflow and the version are active. -/
def LoadedDelivery.activeVersion? (delivery : LoadedDelivery) : Option WorkflowVersionRow :=
  if delivery.trigger.enabled && delivery.trigger.deletedAt.isNone &&
      decide (delivery.workflow.status = .active) then
    delivery.activeVersion.filter fun version => decide (version.status = .active)
  else none

variable (event : EventRow)

/-- What the execution for a delivery of an event is created from. -/
def materializationOf (delivery : LoadedDelivery) (version : WorkflowVersionRow) : Materialization where
  delivery := delivery.row.id
  organizationId := event.organizationId
  workflowId := delivery.workflow.id
  workflowVersionId := version.id
  rootEventId := event.rootEventId
  causationId := event.id
  depth := event.depth

/-- The execution is there already: it is taken for the delivery. -/
def adopt (delivery : LoadedDelivery) : Dispatch String := do
  let found ← findExecution delivery.row.id event.organizationId
  match found with
  | none => Prog.fail (.other "p2025")
  | some executionId => do
    ask (.adoptExecution delivery.row.id executionId)
    pure executionId

def materialize (delivery : LoadedDelivery) : Dispatch Unit :=
  match delivery.activeVersion? with
  | none => ask (.skipDelivery delivery.row.id)
  | some version => do
    let executionId ← Prog.handle (createExecution (materializationOf event delivery version))
      fun error =>
        if error = .uniqueConstraint then adopt event delivery else Prog.fail error
    -- A job that is not taken is made up for by the reconciler.
    Prog.handle (ask (.enqueue executionId)) fun _ => pure ()

/-- The triggers that an event may have; there are none for an event about events. -/
def triggersOf : Dispatch (List EventTriggerRow) :=
  if event.eventType.diagnostic then pure []
  else findTriggers event.organizationId event.eventType

/-- The triggers of an event are looked up once. -/
def matching : Dispatch Unit :=
  if event.matchingCompletedAt.isSome then pure ()
  else do
    let triggers ← triggersOf event
    let found := triggers.filter (EventTriggerRow.isMatch event.envelope)
    ask (.recordMatches event.id event.organizationId (found.map (·.id)))

/-- The envelope is one of the event. -/
def EventRow.isValid : Bool :=
  event.envelope.type.isSome && decide (event.envelope.organizationId = event.organizationId)

def process : Dispatch Unit := do
  let found ← findEvent id
  match found with
  | none => Prog.fail (.other "p2025")
  | some event =>
    if event.isValid then do
      ask (.materializeNotifications id)
      matching event
      let deliveries ← findPending id event.organizationId
      Prog.each (materialize event) deliveries
      let pending ← countPending id
      if pending = 0 then ask (.finishEvent id) else pure ()
    else Prog.fail .invalidEnvelope

/-- How long to wait before the next attempt, in milliseconds. -/
def retryDelay (attempts : ℕ) : ℕ := min 300000 (1000 * 2 ^ (attempts - 1))

/-- `fail`. -/
def failProcessing (error : DispatchError) : Dispatch Unit := do
  let found ← findFailed id
  match found with
  | none => pure ()
  | some row => do
    let dead := error.permanent || decide (10 ≤ row.attempts)
    let t ← now
    ask (.failEvent id dead (some (t + retryDelay row.attempts)) row.organizationId row.eventType
      error.code)

def processOne : Dispatch Unit :=
  Prog.handle (process id) fun error => do
    let destroyed ← isDestroyed
    if destroyed then pure () else failProcessing id error

def runDispatch : Dispatch Unit := do
  let ids ← claim
  Prog.each processOne ids

/-! ## All dispatchers together -/

/-- What others do.  Executions that no event has caused come from webhooks, users, schedules and
replays. -/
inductive Change where
  | tick (time : ℕ)
  | createExecution (id organizationId workflowId : String) (workflowVersionId : Option String)
  /-- A subworkflow step starts a child, which inherits the cause of its parent. -/
  | startChild (parentId id workflowId : String) (workflowVersionId : Option String)
  /-- An event in the name of an execution. -/
  | emitFor (emitter : Emitter) (executionId : String) (type : EventType) (data : Json)
      (id diagnosticId : String)
  /-- A request changes a record of a data store. -/
  | changeRecord (organizationId : String) (type : EventType) (data : Json)
      (id diagnosticId : String)
  /-- The execution of a webhook could not be put into the queue. -/
  | enqueueFailed (executionId : String) (data : Json) (id diagnosticId : String)
  /-- Triggers, workflows and versions are edited. -/
  | edit (triggers : Table EventTriggerRow EventTriggerRow.id)
      (workflows : Table WorkflowRow WorkflowRow.id)
      (versions : Table WorkflowVersionRow WorkflowVersionRow.id)

/-- An execution that no event has caused. -/
def plainExecution (id organizationId workflowId : String) (workflowVersionId : Option String) :
    CausedExecution where
  id := id
  organizationId := organizationId
  workflowId := workflowId
  workflowVersionId := workflowVersionId
  parentExecutionId := none
  eventDeliveryId := none
  eventRootId := none
  eventCausationId := none
  eventDepth := 0

/-- The child of an execution. -/
def CausedExecution.child (parent : CausedExecution) (id workflowId : String)
    (workflowVersionId : Option String) : CausedExecution :=
  { parent with
    id := id
    workflowId := workflowId
    workflowVersionId := workflowVersionId
    parentExecutionId := some parent.id
    eventDeliveryId := none }

/-- Add an execution under an id that is not taken. -/
def Data.addExecution (row : CausedExecution) : Option Data :=
  if hfresh : s.executions.get? row.id = none then
    some { s with executions := s.executions.insert row hfresh }
  else none

/-- What is emitted in the name of an execution. -/
def Emitter.emission (emitter : Emitter) (execution : CausedExecution) (type : EventType)
    (data : Json) : Emission where
  organizationId := execution.organizationId
  type := type
  data := data
  executionId := some execution.id
  causality := emitter.causality execution

def Change.perform (limits : Limits) (s : Data) : Change → Option Data
  | .tick time => if s.clock ≤ time then some { s with clock := time } else none
  | .createExecution id organizationId workflowId workflowVersionId =>
    s.addExecution (plainExecution id organizationId workflowId workflowVersionId)
  | .startChild parentId id workflowId workflowVersionId => do
    let parent ← s.executions.get? parentId
    s.addExecution (parent.child id workflowId workflowVersionId)
  | .emitFor emitter executionId type data id diagnosticId => do
    let execution ← s.executions.get? executionId
    if type ∈ emitter.types then
      emit limits s (emitter.emission execution type data) id diagnosticId
    else none
  | .changeRecord organizationId type data id diagnosticId =>
    if type ∈ Emitter.dataStore.types then
      emit limits s ⟨organizationId, type, data, none, {}⟩ id diagnosticId
    else none
  | .enqueueFailed executionId data id diagnosticId => do
    let execution ← s.executions.get? executionId
    if execution.eventRootId = none then
      emit limits s ⟨execution.organizationId, .executionFailed, data, some executionId, {}⟩ id
        diagnosticId
    else none
  | .edit triggers workflows versions =>
    some { s with triggers := triggers, workflows := workflows, versions := versions }

/-- Any number of dispatchers, and whatever emits events. -/
def dispatchers (limits : Limits) :
    Setting ℕ Unit Data DispatchStatement DispatchAnswer DispatchError Unit DispatchOracle
      Change where
  program _ _ := runDispatch
  perform := DispatchStatement.perform settings
  leave _ s := s
  other change s := change.perform limits s

end Flowmind.InternalEvents
