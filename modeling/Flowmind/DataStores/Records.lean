import Flowmind.InternalEvents.Sanitizing
import Flowmind.Program.Crew
import Flowmind.Store.ReadCommitted
import Flowmind.Store.TxLog

/-!
# Records of data stores

`upsert` changes the record of a key, or creates it, in one transaction: it reads the record, looks
whether it has expired, and then updates or inserts a row.  A caller that uses optimistic
concurrency says which version it expects.  A deletion reads the record before its transaction.
Both write the row by its id, and store an event about it in the transaction.  There are two copies
of each, one in the worker and one in the API; they differ in what they do with an expired record.

Any number of operations may be under way at the same time, each one statement after the other.

* `workerUpsert`, `apiUpsert`, `workerDelete`, `apiDelete` — the programs.
* `operations` — all of them together.
-/

namespace Flowmind.DataStores

open Program Store
open InternalEvents (EventType RecordEventData)

/-! ## Rows -/

/-- A row of the table of records. -/
structure RecordRow where
  id : String
  organizationId : String
  dataStoreId : String
  key : String
  valueJson : Json
  metadataJson : Json
  expiresAt : Option ℕ
  version : ℕ
  deletedAt : Option ℕ

/-- The columns of a row that are no JSON. -/
structure Stamp where
  id : String
  organizationId : String
  dataStoreId : String
  key : String
  expiresAt : Option ℕ
  version : ℕ
  deletedAt : Option ℕ
deriving DecidableEq, Repr

def RecordRow.stamp (row : RecordRow) : Stamp where
  id := row.id
  organizationId := row.organizationId
  dataStoreId := row.dataStoreId
  key := row.key
  expiresAt := row.expiresAt
  version := row.version
  deletedAt := row.deletedAt

/-- The entry in the unique index of records that are not deleted. -/
def RecordRow.entry (row : RecordRow) : Option (String × String) :=
  if row.deletedAt = none then some (row.dataStoreId, row.key) else none

def RecordRow.isExpired (now : ℕ) (row : RecordRow) : Bool :=
  row.expiresAt.any fun expiresAt => decide (expiresAt ≤ now)

/-- The record is deleted, or marked as expired. -/
def RecordRow.deleted (now : ℕ) (row : RecordRow) : RecordRow := { row with deletedAt := some now }

/-- The record has a new value. -/
def RecordRow.renewed (valueJson metadataJson : Json) (expiresAt : Option ℕ) (row : RecordRow) :
    RecordRow :=
  { row with
    valueJson := valueJson
    metadataJson := metadataJson
    expiresAt := expiresAt
    version := row.version + 1 }

/-- An event about a record. -/
structure RecordEvent where
  type : EventType
  data : RecordEventData

/-- The clock, the records, and the events about them. -/
structure Data where
  clock : ℕ
  records : TxTable ℕ RecordRow RecordRow.id
  log : TxLog ℕ RecordEvent

/-- The same with other records. -/
def Data.withRecords (s : Data) (records : TxTable ℕ RecordRow RecordRow.id) : Data :=
  { s with records := records }

/-- `DATA_STORE_LIMITS.maxRecordsPerStore`. -/
def maxRecordsPerStore : ℕ := 50000

/-! ## Requests -/

/-- Whose copy of an operation it is. -/
inductive Caller where
  | worker | api
deriving DecidableEq, Repr

/-- `DataStoreUpsertMode`. -/
inductive UpsertMode where
  | replace | merge
deriving DecidableEq, Repr

/-- What an upsert is asked for; an expected version that is no positive integer is read as zero. -/
structure UpsertRequest where
  caller : Caller
  organizationId : String
  dataStoreId : String
  key : String
  incoming : Json
  metadata : Json
  expiresAt : Option ℕ
  mode : UpsertMode
  optimisticConcurrency : Bool
  expectedVersion : Option ℕ

/-- The version that an upsert insists on. -/
def UpsertRequest.expected? (request : UpsertRequest) : Option ℕ :=
  if request.optimisticConcurrency then request.expectedVersion else none

/-- What an upsert returns. -/
structure UpsertResult where
  created : Bool
  updated : Bool
  version : ℕ
  value : Json

/-- Why an operation fails. -/
inductive OperationError where
  | thrown (message : String)
  /-- The entry in the unique index is taken. -/
  | uniqueViolation
  | recordNotFound
deriving DecidableEq, Repr

/-- What a deletion is asked for. -/
structure DeleteRequest where
  caller : Caller
  organizationId : String
  dataStoreId : String
  key : String

/-- What a deletion returns. -/
structure DeleteResult where
  deleted : Bool
  existed : Bool
deriving DecidableEq, Repr

/-! ## Statements -/

/-- The columns of a new record. -/
structure NewRecord where
  organizationId : String
  dataStoreId : String
  key : String
  valueJson : Json
  metadataJson : Json
  expiresAt : Option ℕ

def NewRecord.row (new : NewRecord) (id : String) : RecordRow where
  id := id
  organizationId := new.organizationId
  dataStoreId := new.dataStoreId
  key := new.key
  valueJson := new.valueJson
  metadataJson := new.metadataJson
  expiresAt := new.expiresAt
  version := 1
  deletedAt := none

/-- A statement of an operation.  The update and the deletion find the record by its id;
`expireRecord` is a transaction of its own. -/
inductive RecordStatement where
  | findRecord (organizationId dataStoreId key : String)
  | now
  | markExpired (id : String)
  | countRecords (organizationId dataStoreId : String)
  | createRecord (new : NewRecord)
  | updateRecord (active : RecordRow) (valueJson metadataJson : Json) (expiresAt : Option ℕ)
  | deleteRecord (record : RecordRow) (deletedAt : ℕ)
  | expireRecord (id : String)
  | emit (event : RecordEvent)
  | commit

/-- The answers: an insertion may violate the unique index, an update may find no record, and an
event may be suppressed. -/
def RecordAnswer : RecordStatement → Type
  | .findRecord .. => Option RecordRow
  | .now => ℕ
  | .countRecords .. => ℕ
  | .createRecord _ => Except Unit RecordRow
  | .updateRecord .. | .deleteRecord .. => Option RecordRow
  | .emit _ => Bool
  | .markExpired _ | .expireRecord _ | .commit => Unit

/-- The record of a key that is not deleted. -/
def RecordRow.isOf (organizationId dataStoreId key : String) (row : RecordRow) : Bool :=
  decide (row.organizationId = organizationId) && decide (row.dataStoreId = dataStoreId) &&
    decide (row.key = key) && decide (row.deletedAt = none)

/-- A record of a data store that is not deleted. -/
def RecordRow.isIn (organizationId dataStoreId : String) (row : RecordRow) : Bool :=
  decide (row.organizationId = organizationId) && decide (row.dataStoreId = dataStoreId) &&
    decide (row.deletedAt = none)

/-- What is open: the id of a new row, and whether the limits of the chain of an event suppress
it. -/
structure OperationOracle where
  id : String := ""
  suppressed : Bool := false

instance : Inhabited OperationOracle := ⟨{}⟩

/-- A transaction writes a row by its id; the row is the answer. -/
def Data.writeById (s : Data) (i : ℕ) (id : String) (f : RecordRow → RecordRow) :
    Option (Option RecordRow × Data) :=
  (s.records.updateById i id f).map fun result => (result.1, s.withRecords result.2)

/-- What a statement of a transaction answers, and what it writes.  A commit commits the events as
well. -/
def RecordStatement.perform (i : ℕ) (oracle : OperationOracle) (s : Data) :
    (statement : RecordStatement) → Option (RecordAnswer statement × Data)
  | .findRecord organizationId dataStoreId key =>
    some ((s.records.seen i).rows.find? (RecordRow.isOf organizationId dataStoreId key), s)
  | .now => some (s.clock, s)
  | .markExpired id =>
    (s.records.updateRow i id (fun row => decide (row.deletedAt = none))
      (RecordRow.deleted s.clock)).map fun result => ((), s.withRecords result.2)
  | .countRecords organizationId dataStoreId =>
    some ((s.records.seen i).count (RecordRow.isIn organizationId dataStoreId), s)
  | .createRecord new =>
    (s.records.insertUnique RecordRow.entry i (new.row oracle.id)).map fun
      | .error () => (.error (), s)
      | .ok records => (.ok (new.row oracle.id), s.withRecords records)
  | .updateRecord active valueJson metadataJson expiresAt =>
    s.writeById i active.id (RecordRow.renewed valueJson metadataJson expiresAt)
  | .deleteRecord record deletedAt => s.writeById i record.id (RecordRow.deleted deletedAt)
  | .expireRecord id =>
    (s.records.updateNow id (fun row => decide (row.deletedAt = none))
      (RecordRow.deleted s.clock)).map fun records => ((), s.withRecords records)
  | .emit event =>
    if oracle.suppressed then some (false, s)
    else some (true, { s with log := s.log.add i event })
  | .commit => some ((), { s with records := s.records.commit i, log := s.log.commit i })

/-! ## The programs -/

/-- Statements one after the other. -/
abbrev Operation (α : Type) : Type := Prog RecordStatement RecordAnswer OperationError α

namespace Operation

def findRecord (organizationId dataStoreId key : String) : Operation (Option RecordRow) :=
  .ask (.findRecord organizationId dataStoreId key) .ret

def now : Operation ℕ := .ask .now .ret

def markExpired (id : String) : Operation Unit := .ask (.markExpired id) .ret

def countRecords (organizationId dataStoreId : String) : Operation ℕ :=
  .ask (.countRecords organizationId dataStoreId) .ret

/-- Insert a row. -/
def createRecord (new : NewRecord) : Operation RecordRow :=
  .ask (.createRecord new) fun
    | .error () => .fail .uniqueViolation
    | .ok row => .ret row

/-- Update a row. -/
def updateRecord (active : RecordRow) (valueJson metadataJson : Json) (expiresAt : Option ℕ) :
    Operation RecordRow :=
  .ask (.updateRecord active valueJson metadataJson expiresAt) fun
    | none => .fail .recordNotFound
    | some row => .ret row

def deleteRecord (record : RecordRow) (deletedAt : ℕ) : Operation Unit :=
  .ask (.deleteRecord record deletedAt) fun
    | none => .fail .recordNotFound
    | some _ => .ret ()

def expireRecord (id : String) : Operation Unit := .ask (.expireRecord id) .ret

def emit (event : RecordEvent) : Operation Unit := .ask (.emit event) fun _ => .ret ()

def commit : Operation Unit := .ask .commit .ret

end Operation

open Operation

/-! ### Upserts -/

variable (assertDataStoreValue : Json → Except String Json)

/-- `mergeJsonObjects`; `assertDataStoreValue` checks the limits of a value. -/
def mergeJsonObjects : Json → Json → Except String Json
  | .obj existing, .obj incoming => assertDataStoreValue (.obj (spread existing incoming))
  | _, _ => .error
      "Data Store merge mode requires existing and incoming values to be JSON objects."

/-- The event about a new record. -/
def recordCreated (dataStoreId key : String) (created : RecordRow) : RecordEvent where
  type := .dataStoreRecordCreated
  data := ⟨dataStoreId, created.id, key, created.version, none, created.valueJson⟩

/-- The event about an update: the version is the one of the row that has been written, the previous
version the one that has been read. -/
def recordUpdated (dataStoreId key : String) (active updated : RecordRow) : RecordEvent where
  type := .dataStoreRecordUpdated
  data := ⟨dataStoreId, updated.id, key, updated.version, some active.version, updated.valueJson⟩

/-- The event about a deletion, as the record has been read. -/
def recordDeleted (dataStoreId key : String) (record : RecordRow) : RecordEvent where
  type := .dataStoreRecordDeleted
  data := ⟨dataStoreId, record.id, key, record.version, none, record.valueJson⟩

section Upserts

variable (assertDataStoreValue : Json → Except String Json) (request : UpsertRequest)

/-- The value that an existing record gets. -/
def newValue (active : RecordRow) : Operation Json :=
  match request.mode with
  | .replace => pure request.incoming
  | .merge =>
    match mergeJsonObjects assertDataStoreValue active.valueJson request.incoming with
    | .ok value => pure value
    | .error message => .fail (.thrown message)

/-- There is no record: insert one. -/
def createMissing : Operation UpsertResult := do
  let count ← countRecords request.organizationId request.dataStoreId
  if maxRecordsPerStore ≤ count then .fail (.thrown "Data Store record limit exceeded")
  else
    let created ← createRecord ⟨request.organizationId, request.dataStoreId, request.key,
      request.incoming, request.metadata, request.expiresAt⟩
    emit (recordCreated request.dataStoreId request.key created)
    commit
    pure ⟨true, false, created.version, created.valueJson⟩

/-- There is a record: update it. -/
def updateActive (active : RecordRow) : Operation UpsertResult := do
  let value ← newValue assertDataStoreValue request active
  let updated ← updateRecord active value request.metadata request.expiresAt
  emit (recordUpdated request.dataStoreId request.key active updated)
  commit
  pure ⟨false, true, updated.version, updated.valueJson⟩

/-- The record, unless it has expired. -/
def activeRecord : Option RecordRow → Operation (Option RecordRow)
  | none => pure none
  | some existing => do
    let t ← now
    pure (if existing.isExpired t then none else some existing)

/-- The worker marks a record that has expired. -/
def markIfExpired : Option RecordRow → Operation Unit
  | none => pure ()
  | some existing => do
    let t ← now
    if existing.isExpired t then markExpired existing.id else pure ()

/-- The version is not the one that the caller insists on. -/
def UpsertRequest.conflicts (active : RecordRow) : Bool :=
  request.optimisticConcurrency && decide (request.expectedVersion ≠ some active.version)

/-- What both copies of the upsert do with the record, unless it has expired. -/
def upsertActive : Option RecordRow → Operation UpsertResult
  | none => createMissing request
  | some active =>
    if request.conflicts active then .fail (.thrown "Data Store version conflict")
    else updateActive assertDataStoreValue request active

/-- `upsert` of the worker. -/
def workerUpsert : Operation UpsertResult :=
  if request.optimisticConcurrency = true ∧ ¬1 ≤ request.expectedVersion.getD 0 then
    .fail (.thrown "Data Store expectedVersion must be a positive integer")
  else do
    let existing ← findRecord request.organizationId request.dataStoreId request.key
    markIfExpired existing
    let active ← activeRecord existing
    upsertActive assertDataStoreValue request active

/-- `upsertRecord` of the API. -/
def apiUpsert : Operation UpsertResult :=
  if request.optimisticConcurrency = true ∧ request.expectedVersion.getD 0 = 0 then
    .fail (.thrown "expectedVersion is required with optimisticConcurrency")
  else do
    let existing ← findRecord request.organizationId request.dataStoreId request.key
    let active ← activeRecord existing
    upsertActive assertDataStoreValue request active

def upsert : Operation UpsertResult :=
  match request.caller with
  | .worker => workerUpsert assertDataStoreValue request
  | .api => apiUpsert assertDataStoreValue request

end Upserts

/-! ### Deletions -/

variable (request : DeleteRequest)

/-- The transaction of a deletion. -/
def deleteFound (record : RecordRow) (deletedAt : ℕ) : Operation DeleteResult := do
  deleteRecord record deletedAt
  emit (recordDeleted request.dataStoreId request.key record)
  commit
  pure ⟨true, true⟩

/-- `delete` of the worker. -/
def workerDelete : Operation DeleteResult := do
  let found ← findRecord request.organizationId request.dataStoreId request.key
  match found with
  | none => pure ⟨false, false⟩
  | some record =>
    let t ← now
    if record.isExpired t then
      expireRecord record.id
      pure ⟨false, false⟩
    else
      let deletedAt ← now
      deleteFound request record deletedAt

/-- `deleteRecord` of the API, which looks at the clock first, and looks twice whether the record
has expired. -/
def apiDelete : Operation DeleteResult := do
  let deletedAt ← now
  let found ← findRecord request.organizationId request.dataStoreId request.key
  match found with
  | none => pure ⟨false, false⟩
  | some record =>
    let t ← now
    if record.isExpired t then
      let t ← now
      if record.isExpired t then expireRecord record.id
      pure ⟨false, false⟩
    else deleteFound request record deletedAt

def delete : Operation DeleteResult :=
  match request.caller with
  | .worker => workerDelete request
  | .api => apiDelete request

/-! ## All operations together -/

/-- What an operation is asked for. -/
inductive OperationRequest where
  | upsert (request : UpsertRequest)
  | delete (request : DeleteRequest)

/-- What an operation returns. -/
inductive OperationResult where
  | upserted (result : UpsertResult)
  | deleted (result : DeleteResult)

def operation : OperationRequest → Operation OperationResult
  | .upsert request => do
    let result ← upsert assertDataStoreValue request
    pure (.upserted result)
  | .delete request => do
    let result ← delete request
    pure (.deleted result)

/-- What others do: records are deleted along with their data store, or marked as expired by a
reader. -/
inductive Change where
  | tick (time : ℕ)
  | delete (id : String)
  | expire (id : String)

def Change.perform (s : Data) : Change → Option Data
  | .tick time => if s.clock ≤ time then some { s with clock := time } else none
  | .delete id =>
    (s.records.updateNow id (fun _ => true) (RecordRow.deleted s.clock)).map s.withRecords
  | .expire id =>
    (s.records.updateNow id (fun row => decide (row.deletedAt = none))
      (RecordRow.deleted s.clock)).map s.withRecords

/-- Any number of operations; `requests` says what each of them is asked for. -/
def operations (requests : ℕ → OperationRequest) :
    Setting ℕ Unit Data RecordStatement RecordAnswer OperationError OperationResult
      OperationOracle Change where
  program i _ := operation assertDataStoreValue (requests i)
  perform i oracle s statement := statement.perform i oracle s
  leave i s := { s with records := s.records.rollback i, log := s.log.rollback i }
  other change s := change.perform s

end Flowmind.DataStores
