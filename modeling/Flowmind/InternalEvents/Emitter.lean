import Flowmind.Publishing.Activation
import Flowmind.Store.Table

/-!
# Internal events

An internal event is recorded when an execution ends, an approval is asked for or decided, or a
record of a data store changes.  Event triggers start executions for such events, which cause
further events: an event carries the **root** of its chain and its **depth** in it, and so do the
executions that it causes.

* `emit` — record an event, or suppress it when its chain is too deep or too long.
* `Emitter.causality` — the cause that an emitter names for an event on behalf of an execution.
* `matchesInternalEvent` — the filters of an event trigger.
-/

namespace Flowmind.InternalEvents

open Store

/-! ## Types of events -/

/-- The types of internal events. -/
inductive EventType where
  | dataStoreRecordCreated | dataStoreRecordUpdated | dataStoreRecordDeleted
  | executionCompleted | executionFailed
  | approvalRequested | approvalApproved | approvalRejected | approvalExpired
  | eventTriggerFailed | eventChainDepthExceeded
deriving DecidableEq, Repr

def EventType.name : EventType → String
  | dataStoreRecordCreated => "DATA_STORE_RECORD_CREATED"
  | dataStoreRecordUpdated => "DATA_STORE_RECORD_UPDATED"
  | dataStoreRecordDeleted => "DATA_STORE_RECORD_DELETED"
  | executionCompleted => "EXECUTION_COMPLETED"
  | executionFailed => "EXECUTION_FAILED"
  | approvalRequested => "APPROVAL_REQUESTED"
  | approvalApproved => "APPROVAL_APPROVED"
  | approvalRejected => "APPROVAL_REJECTED"
  | approvalExpired => "APPROVAL_EXPIRED"
  | eventTriggerFailed => "EVENT_TRIGGER_FAILED"
  | eventChainDepthExceeded => "EVENT_CHAIN_DEPTH_EXCEEDED"

/-- The events about internal events themselves, for which no trigger is looked up. -/
def EventType.diagnostic : EventType → Bool
  | eventTriggerFailed | eventChainDepthExceeded => true
  | _ => false

/-- The event is about an approval. -/
def EventType.isApproval : EventType → Bool
  | approvalRequested | approvalApproved | approvalRejected | approvalExpired => true
  | _ => false

/-! ## Rows -/

/-- The status of an event. -/
inductive EventStatus where
  | pending | processing | processed | dead
deriving DecidableEq, Repr

/-- The event will not be processed again. -/
def EventStatus.isFinished : EventStatus → Bool
  | processed | dead => true
  | pending | processing => false

/-- What is sent to the triggers; the type is missing if it is none of the known ones. -/
structure Envelope where
  type : Option EventType
  organizationId : String
  data : Json

/-- A row of the table of events. -/
structure EventRow where
  id : String
  organizationId : String
  eventType : EventType
  envelope : Envelope
  occurredAt : ℕ
  rootEventId : String
  causationId : Option String
  depth : ℕ
  /-- The execution in whose name the event was emitted, from the source or the data of the
  envelope. -/
  executionId : Option String
  status : EventStatus
  attempts : ℕ
  nextAttemptAt : Option ℕ
  lockedBy : Option ℕ
  lockedUntil : Option ℕ
  matchingCompletedAt : Option ℕ

/-- A row of the table of chains: the number of events of a root. -/
structure ChainRow where
  rootEventId : String
  organizationId : String
  eventCount : ℕ
deriving DecidableEq, Repr

/-- The identity of a delivery: the schema allows one for an event and a trigger. -/
structure DeliveryId where
  internalEventId : String
  triggerId : String
deriving DecidableEq, Repr

/-- The status of a delivery. -/
inductive DeliveryStatus where
  | pending | materialized | skipped
deriving DecidableEq, Repr

/-- A row of the table of deliveries. -/
structure DeliveryRow where
  id : DeliveryId
  organizationId : String
  status : DeliveryStatus
  executionId : Option String
deriving DecidableEq, Repr

/-- The columns of an execution that say what has caused it.  Only the dispatcher of events creates
executions with a delivery. -/
structure CausedExecution where
  id : String
  organizationId : String
  workflowId : String
  workflowVersionId : Option String
  parentExecutionId : Option String
  eventDeliveryId : Option DeliveryId
  eventRootId : Option String
  eventCausationId : Option String
  eventDepth : ℕ
deriving DecidableEq, Repr

/-- An event trigger. -/
structure EventTriggerRow where
  id : String
  organizationId : String
  workflowId : String
  eventType : EventType
  enabled : Bool
  deletedAt : Option ℕ
  /-- `configJson.filters`. -/
  filters : Option Json

/-- What dispatchers and emitters share. -/
structure Data where
  clock : ℕ
  events : Table EventRow EventRow.id
  chains : Table ChainRow ChainRow.rootEventId
  deliveries : Table DeliveryRow DeliveryRow.id
  executions : Table CausedExecution CausedExecution.id
  triggers : Table EventTriggerRow EventTriggerRow.id
  workflows : Table WorkflowRow WorkflowRow.id
  versions : Table WorkflowVersionRow WorkflowVersionRow.id

/-! ## Filters -/

/-- The filters of a trigger. -/
structure EventTriggerFilters where
  dataStoreId : Option String
  keyPrefix : Option String
  workflowId : Option String
  origin : Option String
deriving DecidableEq, Repr

/-- The filters that a type of events has. -/
def EventType.allowedFilters : EventType → List String
  | dataStoreRecordCreated | dataStoreRecordUpdated | dataStoreRecordDeleted =>
    ["dataStoreId", "keyPrefix"]
  | executionCompleted | executionFailed => ["workflowId", "origin"]
  | approvalRequested | approvalApproved | approvalRejected | approvalExpired => ["workflowId"]
  | eventTriggerFailed | eventChainDepthExceeded => []

def executionOrigins : List String :=
  ["manual", "webhook", "scheduled", "event", "subworkflow", "retry"]

/-- A string that is not blank and not too long, if the value is there at all. -/
def requiredString (value : Option Json) (name : String) (max : ℕ) :
    Except String (Option String) :=
  match value with
  | none => .ok none
  | some (.str s) =>
    if jsTrim s = "" ∨ max < utf16Length s then .error ("Invalid " ++ name)
    else .ok (jsTrim s)
  | some _ => .error ("Invalid " ++ name)

def originFilter (value : Option Json) : Except String (Option String) :=
  match value with
  | none => .ok none
  | some (.str s) =>
    if s ∈ executionOrigins then .ok s else .error "Invalid execution origin filter"
  | some _ => .error "Invalid execution origin filter"

/-- The fields of an object; any other value has none. -/
def fieldNames : Option Json → List String
  | some (.obj fields) => fields.map (·.1)
  | _ => []

def normalizeEventTriggerFilters (eventType : EventType) (value : Option Json) :
    Except String EventTriggerFilters := do
  match (fieldNames value).find? fun key => decide (key ∉ eventType.allowedFilters) with
  | some key => .error ("Unsupported filter " ++ key ++ " for " ++ eventType.name)
  | none =>
    let dataStoreId ← requiredString (Json.field value "dataStoreId") "dataStoreId" 128
    let keyPrefix ← requiredString (Json.field value "keyPrefix") "keyPrefix" 256
    let workflowId ← requiredString (Json.field value "workflowId") "workflowId" 128
    let origin ← originFilter (Json.field value "origin")
    .ok { dataStoreId, keyPrefix, workflowId, origin }

/-- A filter, if there is one, is met. -/
def meetsFilter (filter : Option String) (check : String → Bool) : Bool :=
  match filter with
  | some wanted => check wanted
  | none => true

def matchesInternalEvent (envelope : Envelope) (filters : EventTriggerFilters) : Bool :=
  let field (name : String) : Option String := Json.asString? (envelope.data.get? name)
  meetsFilter filters.dataStoreId (fun wanted => decide (field "dataStoreId" = some wanted)) &&
    meetsFilter filters.keyPrefix (fun wanted =>
      (field "key").any fun key => wanted.toList.isPrefixOf key.toList) &&
    meetsFilter filters.workflowId (fun wanted => decide (field "workflowId" = some wanted)) &&
    meetsFilter filters.origin (fun wanted => decide (field "origin" = some wanted))

/-- A trigger whose filters cannot be read matches nothing. -/
def EventTriggerRow.isMatch (envelope : Envelope) (trigger : EventTriggerRow) : Bool :=
  envelope.type.any fun type =>
    match normalizeEventTriggerFilters type trigger.filters with
    | .ok filters => matchesInternalEvent envelope filters
    | .error _ => false

/-! ## Emitting -/

/-- The limits of a chain. -/
structure Limits where
  maxDepth : ℕ
  maxChainEvents : ℕ
  one_le_maxChainEvents : 1 ≤ maxChainEvents

/-- What an emitter says about the cause of an event. -/
structure Causality where
  rootEventId : Option String := none
  causationId : Option String := none
  depth : ℕ := 0
deriving DecidableEq, Repr

/-- What is emitted. -/
structure Emission where
  organizationId : String
  type : EventType
  data : Json
  executionId : Option String
  causality : Causality

/-- The depth of the event in its chain; an event without a root begins a chain. -/
def Emission.depth (emission : Emission) : ℕ :=
  if emission.causality.rootEventId.isSome then emission.causality.depth + 1 else 0

/-- The row of a new event. -/
def newEvent (id organizationId : String) (type : EventType) (data : Json) (occurredAt : ℕ)
    (rootEventId : String) (causationId : Option String) (depth : ℕ)
    (executionId : Option String) : EventRow where
  id := id
  organizationId := organizationId
  eventType := type
  envelope := ⟨some type, organizationId, data⟩
  occurredAt := occurredAt
  rootEventId := rootEventId
  causationId := causationId
  depth := depth
  executionId := executionId
  status := .pending
  attempts := 0
  nextAttemptAt := none
  lockedBy := none
  lockedUntil := none
  matchingCompletedAt := none

/-- Add an event under an id that is not taken. -/
def Data.addEvent (s : Data) (row : EventRow) : Option Data :=
  if hfresh : s.events.get? row.id = none then
    some { s with events := s.events.insert row hfresh }
  else none

/-- Begin a chain. -/
def Data.addChain (s : Data) (rootEventId organizationId : String) : Option Data :=
  let row : ChainRow := ⟨rootEventId, organizationId, 1⟩
  if hfresh : s.chains.get? row.rootEventId = none then
    some { s with chains := s.chains.insert row hfresh }
  else none

/-- A chain that an event may still be added to. -/
def ChainRow.isOpen (rootEventId organizationId : String) (maxChainEvents : ℕ) (row : ChainRow) :
    Bool :=
  decide (row.rootEventId = rootEventId) && decide (row.organizationId = organizationId) &&
    decide (row.eventCount < maxChainEvents)

/-- Count one more event of a chain. -/
def Data.countEvent (s : Data) (rootEventId organizationId : String) (maxChainEvents : ℕ) : Data :=
  { s with
    chains := s.chains.updateMany (ChainRow.isOpen rootEventId organizationId maxChainEvents)
      fun row => { row with eventCount := row.eventCount + 1 } }

/-- Record an event about events, which begins a chain of its own. -/
def Data.addDiagnostic (s : Data) (id organizationId : String) (type : EventType) (data : Json) :
    Option Data := do
  let s ← s.addChain id organizationId
  s.addEvent (newEvent id organizationId type data s.clock id none 0 none)

/-- Why an event is suppressed. -/
inductive SuppressReason where
  | depth | count
deriving DecidableEq, Repr

/-- What the diagnostic event about a suppressed one says. -/
def suppressedData (type : EventType) (rootEventId : String) (depth : ℕ)
    (reason : SuppressReason) : Json :=
  .obj [("suppressedEventType", .str type.name), ("rootEventId", .str rootEventId),
    ("depth", .num depth),
    ("reason", .str (match reason with | .depth => "depth" | .count => "count"))]

/-- `suppress`. -/
def Data.suppress (s : Data) (emission : Emission) (diagnosticId rootEventId : String)
    (reason : SuppressReason) : Option Data :=
  s.addDiagnostic diagnosticId emission.organizationId .eventChainDepthExceeded
    (suppressedData emission.type rootEventId emission.depth reason)

/-- Record an event under a new id; `diagnosticId` is the id of the event about it if it is
suppressed. -/
def emit (limits : Limits) (s : Data) (emission : Emission) (id diagnosticId : String) :
    Option Data :=
  let rootEventId := emission.causality.rootEventId.getD id
  let row := newEvent id emission.organizationId emission.type emission.data s.clock rootEventId
    emission.causality.causationId emission.depth emission.executionId
  if limits.maxDepth < emission.depth then s.suppress emission diagnosticId rootEventId .depth
  else if rootEventId = id then do
    let s ← s.addChain rootEventId emission.organizationId
    s.addEvent row
  else if s.chains.count
      (ChainRow.isOpen rootEventId emission.organizationId limits.maxChainEvents) = 0 then
    s.suppress emission diagnosticId rootEventId .count
  else
    (s.countEvent rootEventId emission.organizationId limits.maxChainEvents).addEvent row

/-! ## Causes -/

/-- Who emits an event on behalf of an execution. -/
inductive Emitter where
  /-- `transitionTerminal`: the execution is completed or has failed. -/
  | transitionTerminal
  /-- The handler of an approval step: an approval is asked for. -/
  | approvalHandler
  /-- A member of the organization has decided. -/
  | decide
  /-- The reconciler: the time for the decision is over. -/
  | recoverApprovals
  /-- A data store step. -/
  | dataStore
deriving DecidableEq, Repr

/-- The cause as it is read off the row of an execution that an event has caused. -/
def CausedExecution.causality (execution : CausedExecution) : Causality :=
  match execution.eventRootId with
  | some rootEventId =>
    { rootEventId := some rootEventId, causationId := execution.eventCausationId
      depth := execution.eventDepth }
  | none => {}

/-- The cause that an emitter names; the handler of approval steps names none. -/
def Emitter.causality (execution : CausedExecution) : Emitter → Causality
  | transitionTerminal | decide | recoverApprovals | dataStore => execution.causality
  | approvalHandler => {}

/-- The types of events of an emitter. -/
def Emitter.types : Emitter → List EventType
  | transitionTerminal => [.executionCompleted, .executionFailed]
  | approvalHandler => [.approvalRequested]
  | decide => [.approvalApproved, .approvalRejected]
  | recoverApprovals => [.approvalExpired]
  | dataStore => [.dataStoreRecordCreated, .dataStoreRecordUpdated, .dataStoreRecordDeleted]

end Flowmind.InternalEvents
