import Flowmind.DataStores.Records

/-!
# What the operations on records write

Between two statements of an operation the others go on.  What an operation knows of the records is
what it has written, which the others leave alone.

* `operationProtocol` — the statements of an operation, with what it has read and written: the row
  that it updates was found and had not expired, the event that it emits is the one about the row
  that it has written, and it commits both.
* `Effect` — what each statement does to the records, whoever makes it.
* `HeldBy` — the row that an operation has written is a new one or replaces a committed one; what
  was known of that one when the row was written is still known.  `Held.step` carries this from step
  to step, for any condition on the rows that are replaced (`Allows`).
-/

namespace Flowmind.DataStores

open Program Store TxTable
open InternalEvents (EventType)

/-! ## The protocol -/

/-- What a transaction has written. -/
inductive Write where
  | created (row : RecordRow)
  | updated (active row : RecordRow)
  | deleted (record row : RecordRow)

namespace Write

def row : Write → RecordRow
  | created row | updated _ row | deleted _ row => row

/-- The record as it was read. -/
def read? : Write → Option RecordRow
  | created _ => none
  | updated active _ => some active
  | deleted record _ => some record

end Write

/-- What a statement has written. -/
def writeOf : (op : RecordStatement) → RecordAnswer op → Option Write
  | .createRecord _, .ok row => some (.created row)
  | .updateRecord active .., some row => some (.updated active row)
  | .deleteRecord record _, some row => some (.deleted record row)
  | _, _ => none

/-- What an event says about the history of its record. -/
structure Gist where
  type : EventType
  recordId : String
  version : ℕ
  previousVersion : Option ℕ
deriving DecidableEq, Repr

def RecordEvent.gist (event : RecordEvent) : Gist :=
  ⟨event.type, event.data.recordId, event.data.version, event.data.previousVersion⟩

/-- The event about what has been written. -/
def Write.gist : Write → Gist
  | created row => ⟨.dataStoreRecordCreated, row.id, row.version, none⟩
  | updated active row => ⟨.dataStoreRecordUpdated, row.id, row.version, some active.version⟩
  | deleted record _ => ⟨.dataStoreRecordDeleted, record.id, record.version, none⟩

/-- The version that an operation insists on. -/
def OperationRequest.expected? : OperationRequest → Option ℕ
  | .upsert request => request.expected?
  | .delete _ => none

/-- The record is the one of the key. -/
def OperationRequest.finds : OperationRequest → RecordRow → Bool
  | .upsert request => RecordRow.isOf request.organizationId request.dataStoreId request.key
  | .delete request => RecordRow.isOf request.organizationId request.dataStoreId request.key

/-- What is known of an operation: when it last looked at the clock, what it has written, and whether
it has emitted the event about it. -/
structure OperationView where
  request : OperationRequest
  readAt : Option ℕ := none
  wrote : Option Write := none
  emitted : Bool := false

/-- The operation has written nothing. -/
def OperationView.Clean (view : OperationView) : Prop := view.wrote = none ∧ view.emitted = false

/-- The record is the one of the key, had not expired, and has the version that is insisted on. -/
structure Fits (request : OperationRequest) (readAt : Option ℕ) (active : RecordRow) : Prop where
  finds : request.finds active = true
  fresh : ∃ t, readAt = some t ∧ active.isExpired t = false
  expected : ∀ version, request.expected? = some version → active.version = version

def operationProtocol : Protocol RecordStatement RecordAnswer OperationView where
  ok view
    | .updateRecord active .. => view.Clean ∧ Fits view.request view.readAt active
    | .deleteRecord .. => view.Clean ∧ ∃ deletion, view.request = .delete deletion
    | .emit event => view.wrote.map Write.gist = some event.gist ∧ view.emitted = false
    | .commit => view.wrote ≠ none ∧ view.emitted = true
    | _ => view.Clean
  rely
    | .findRecord organizationId dataStoreId key, (found : Option RecordRow) =>
      ∀ row, found = some row → row.isOf organizationId dataStoreId key = true
    | _, _ => True
  next view
    | .now, (t : ℕ) => { view with readAt := some t }
    | .emit _, _ => { view with emitted := true }
    | .commit, _ => { view with wrote := none, emitted := false }
    | op, answer => { view with wrote := (writeOf op answer).or view.wrote }

variable {assertDataStoreValue : Json → Except String Json} {view : OperationView}

section Meets

/-- The operation keeps to the protocol. -/
abbrev Proper {α : Type} (program : Operation α) (view : OperationView) : Prop :=
  Meets operationProtocol (fun _ _ => True) (fun _ _ => True) program view

/-- What emits the event about what has been written, and commits. -/
lemma proper_emit {α : Type} {event : RecordEvent} {result : α}
    (hwrote : view.wrote.map Write.gist = some event.gist) (hemitted : view.emitted = false) :
    Proper (do Operation.emit event; Operation.commit; pure result) view := by
  refine ⟨⟨hwrote, hemitted⟩, fun _ _ => ⟨⟨fun hnone => ?_, rfl⟩, fun _ _ => trivial⟩⟩
  rw [show view.wrote = none from hnone] at hwrote
  cases hwrote

variable {request : UpsertRequest}

lemma proper_createMissing (hclean : view.Clean) : Proper (createMissing request) view := by
  refine .step hclean fun (count : ℕ) _ => ?_
  refine .ite trivial ?_
  refine .step hclean fun (created : Except Unit RecordRow) _ => ?_
  cases created with
  | error => trivial
  | ok row => exact proper_emit rfl hclean.2

lemma proper_updateActive {active : RecordRow} (hclean : view.Clean)
    (hfits : Fits view.request view.readAt active) :
    Proper (updateActive assertDataStoreValue request active) view := by
  have hvalue : Meets operationProtocol (fun view' _ => view' = view) (fun _ _ => True)
      (newValue assertDataStoreValue request active) view := by
    unfold newValue
    cases request.mode with
    | replace => rfl
    | merge =>
      cases mergeJsonObjects assertDataStoreValue active.valueJson request.incoming with
      | ok => rfl
      | error => trivial
  refine hvalue.bind ?_
  rintro _ value rfl
  refine .step ⟨hclean, hfits⟩ fun (updated : Option RecordRow) _ => ?_
  cases updated with
  | none => trivial
  | some row => exact proper_emit rfl hclean.2

/-- The upsert has read the record and not written yet. -/
structure AtRead (request : UpsertRequest) (existing : Option RecordRow) (view : OperationView) :
    Prop where
  asked : view.request = .upsert request
  clean : view.Clean
  isOf : ∀ row, existing = some row →
    row.isOf request.organizationId request.dataStoreId request.key = true

variable {existing : Option RecordRow}

lemma meets_markIfExpired (h : AtRead request existing view) :
    Meets operationProtocol (fun view' _ => AtRead request existing view') (fun _ _ => True)
      (markIfExpired existing) view := by
  cases existing with
  | none => exact h
  | some record =>
    refine .step h.clean fun (t : ℕ) _ => ?_
    refine .ite ?_ ⟨h.asked, h.clean, h.isOf⟩
    exact .step h.clean fun _ _ => ⟨h.asked, h.clean, h.isOf⟩

lemma meets_activeRecord (h : AtRead request existing view) :
    Meets operationProtocol
      (fun view' active => AtRead request active view' ∧ ∀ row, active = some row →
        ∃ t, view'.readAt = some t ∧ row.isExpired t = false)
      (fun _ _ => True) (activeRecord existing) view := by
  cases existing with
  | none => exact ⟨h, nofun⟩
  | some record =>
    refine .step h.clean fun (t : ℕ) _ => ?_
    split_ifs with hexpired
    · exact ⟨⟨h.asked, h.clean, nofun⟩, nofun⟩
    · refine ⟨⟨h.asked, h.clean, h.isOf⟩, ?_⟩
      rintro _ ⟨⟩
      exact ⟨t, rfl, by simpa using hexpired⟩

/-- What both copies do with the active record. -/
lemma proper_upsertActive {active : Option RecordRow} (h : AtRead request active view)
    (hfresh : ∀ row, active = some row → ∃ t, view.readAt = some t ∧ row.isExpired t = false) :
    Proper (upsertActive assertDataStoreValue request active) view := by
  cases active with
  | none => exact proper_createMissing h.clean
  | some row =>
    simp only [upsertActive]
    split_ifs with hconflicts
    · trivial
    · refine proper_updateActive h.clean ⟨h.asked ▸ h.isOf row rfl, hfresh row rfl, ?_⟩
      intro version hversion
      rw [h.asked, OperationRequest.expected?, UpsertRequest.expected?] at hversion
      split_ifs at hversion with hoptimistic
      simp only [UpsertRequest.conflicts, hoptimistic, hversion, Bool.true_and, Option.some.injEq,
        decide_eq_true_eq, not_not] at hconflicts
      exact hconflicts.symm

lemma proper_upsert : Proper (upsert assertDataStoreValue request) { request := .upsert request } := by
  have hread : ∀ found : Option RecordRow, (∀ row, found = some row →
      row.isOf request.organizationId request.dataStoreId request.key = true) →
      AtRead request found { request := .upsert request } :=
    fun found hrely => ⟨rfl, ⟨rfl, rfl⟩, hrely⟩
  unfold upsert
  cases request.caller with
  | worker =>
    refine .ite trivial ?_
    refine .step ⟨rfl, rfl⟩ fun (found : Option RecordRow) hrely => ?_
    refine (meets_markIfExpired (hread found hrely)).bind fun view _ h => ?_
    exact (meets_activeRecord h).bind fun view _ h => proper_upsertActive h.1 h.2
  | api =>
    refine .ite trivial ?_
    refine .step ⟨rfl, rfl⟩ fun (found : Option RecordRow) hrely => ?_
    exact (meets_activeRecord (hread found hrely)).bind fun view _ h => proper_upsertActive h.1 h.2

lemma proper_deleteFound {request : DeleteRequest} {record : RecordRow} {deletedAt : ℕ}
    (hclean : view.Clean) (hasked : view.request = .delete request) :
    Proper (deleteFound request record deletedAt) view := by
  refine .step ⟨hclean, request, hasked⟩ fun (deleted : Option RecordRow) _ => ?_
  cases deleted with
  | none => trivial
  | some row => exact proper_emit rfl hclean.2

lemma proper_expireRecord {id : String} {result : DeleteResult} (hclean : view.Clean) :
    Proper (do Operation.expireRecord id; pure result) view :=
  ⟨hclean, fun _ _ => trivial⟩

lemma proper_delete {request : DeleteRequest} (hclean : view.Clean)
    (hasked : view.request = .delete request) : Proper (delete request) view := by
  unfold delete
  cases request.caller with
  | worker =>
    refine ⟨hclean, fun (found : Option RecordRow) _ => ?_⟩
    cases found with
    | none => trivial
    | some record =>
      refine ⟨hclean, fun (t : ℕ) _ => ?_⟩
      exact .ite (proper_expireRecord hclean) ⟨hclean, fun _ _ => proper_deleteFound hclean hasked⟩
  | api =>
    refine ⟨hclean, fun (deletedAt : ℕ) _ => ⟨hclean, fun (found : Option RecordRow) _ => ?_⟩⟩
    cases found with
    | none => trivial
    | some record =>
      refine ⟨hclean, fun (t : ℕ) _ => ?_⟩
      refine .ite ?_ (proper_deleteFound hclean hasked)
      refine ⟨hclean, fun (t : ℕ) _ => ?_⟩
      change Meets _ _ _ (if _ then _ else _) _
      split_ifs
      · exact proper_expireRecord hclean
      · trivial

lemma proper_operation (request : OperationRequest) :
    Proper (operation assertDataStoreValue request) { request } := by
  cases request with
  | upsert request =>
    have hproper : Proper (upsert assertDataStoreValue request) _ := proper_upsert
    refine hproper.bind fun _ _ _ => ?_
    trivial
  | delete request =>
    have hproper : Proper (delete request) { request := .delete request } :=
      proper_delete ⟨rfl, rfl⟩ rfl
    refine hproper.bind fun _ _ _ => ?_
    trivial

end Meets

/-! ## Steps -/

/-- What happens in the system of all operations. -/
abbrev OperationEvent : Type := CrewEvent ℕ Unit RecordAnswer OperationError OperationResult Change

/-- What is known of all operations. -/
abbrev OperationViews : Type := Views ℕ Data OperationView

/-- One step of what is known of all operations. -/
abbrev OperationStep (assertDataStoreValue : Json → Except String Json)
    (requests : ℕ → OperationRequest) : OperationViews → OperationEvent → OperationViews → Prop :=
  ViewStep (operations assertDataStoreValue requests) operationProtocol
    (fun i _ => { request := requests i }) (fun _ _ => True) fun _ _ => True

variable {requests : ℕ → OperationRequest} {w w' : OperationViews} {event : OperationEvent}
  {events : List OperationEvent} {s s' : Data} {i j : ℕ} {op : RecordStatement}
  {answer : RecordAnswer op} {write : Write}

lemma id_deleted (now : ℕ) (row : RecordRow) : (row.deleted now).id = row.id := rfl

lemma id_renewed (valueJson metadataJson : Json) (expiresAt : Option ℕ) (row : RecordRow) :
    (row.renewed valueJson metadataJson expiresAt).id = row.id := rfl

lemma entry_of_deleted {now : ℕ} {row : RecordRow} {entry : String × String}
    (h : (row.deleted now).entry = some entry) : row.entry = some entry := by
  simp [RecordRow.entry, RecordRow.deleted] at h

/-- The row of a write is a new one, or what becomes of the one that the transaction sees. -/
inductive Write.Over (i : ℕ) (t : TxTable ℕ RecordRow RecordRow.id) : Write → Prop where
  | created {new : NewRecord} {id : String}
      (hinsert : t.insertUnique RecordRow.entry i (new.row id) = some (.ok (t.write i (new.row id)))) :
      Over i t (.created (new.row id))
  | updated {active row : RecordRow} {valueJson metadataJson : Json} {expiresAt : Option ℕ}
      (hfree : t.isFree i active.id = true) (hrow : (t.seen i).get? active.id = some row) :
      Over i t (.updated active (row.renewed valueJson metadataJson expiresAt))
  | deleted {record row : RecordRow} {deletedAt : ℕ} (hfree : t.isFree i record.id = true)
      (hrow : (t.seen i).get? record.id = some row) :
      Over i t (.deleted record (row.deleted deletedAt))

/-- What a statement of an operation does. -/
inductive Effect (i : ℕ) (s : Data) :
    (op : RecordStatement) → RecordAnswer op → Data → Prop where
  | idle {op : RecordStatement} {answer : RecordAnswer op}
      (hok : ∀ view, operationProtocol.ok view op → view.Clean)
      (hnext : ∀ view, (operationProtocol.next view op answer).wrote = view.wrote)
      (hemitted : ∀ view, (operationProtocol.next view op answer).emitted = view.emitted) :
      Effect i s op answer s
  | marked {id : String} {n : ℕ} {records : TxTable ℕ RecordRow RecordRow.id}
      (h : s.records.updateRow i id (fun row => decide (row.deletedAt = none))
        (RecordRow.deleted s.clock) = some (n, records)) :
      Effect i s (.markExpired id) () (s.withRecords records)
  | expired {id : String} {records : TxTable ℕ RecordRow RecordRow.id}
      (h : s.records.updateNow id (fun row => decide (row.deletedAt = none))
        (RecordRow.deleted s.clock) = some records) :
      Effect i s (.expireRecord id) () (s.withRecords records)
  | wrote {op : RecordStatement} {answer : RecordAnswer op} {write : Write}
      (hok : ∀ view, operationProtocol.ok view op → view.Clean)
      (hnext : ∀ view, operationProtocol.next view op answer = { view with wrote := some write })
      (hwrites : writeOf op answer = some write) (hover : write.Over i s.records) :
      Effect i s op answer (s.withRecords (s.records.write i write.row))
  | suppressed {event : RecordEvent} : Effect i s (.emit event) false s
  | emitted {event : RecordEvent} :
      Effect i s (.emit event) true { s with log := s.log.add i event }
  | committed :
      Effect i s .commit () { s with records := s.records.commit i, log := s.log.commit i }

lemma effect_of_perform {oracle : OperationOracle}
    (h : op.perform i oracle s = some (answer, s')) : Effect i s op answer s' := by
  cases op with
  | findRecord | now | countRecords =>
    cases h
    exact .idle (fun _ => id) (fun _ => rfl) fun _ => rfl
  | markExpired =>
    obtain ⟨result, hupdate, ⟨⟩⟩ := Option.map_eq_some_iff.mp h
    exact .marked hupdate
  | createRecord new =>
    obtain ⟨result, hinsert, heq⟩ := Option.map_eq_some_iff.mp h
    cases result with
    | error =>
      cases heq
      exact .idle (fun _ => id) (fun _ => rfl) fun _ => rfl
    | ok records =>
      cases heq
      obtain ⟨-, -, rfl, -⟩ := insertUnique_ok hinsert
      exact .wrote (fun _ => id) (fun _ => rfl) rfl (.created hinsert)
  | updateRecord active valueJson metadataJson expiresAt =>
    obtain ⟨⟨_, records⟩, hupdate, ⟨⟩⟩ := Option.map_eq_some_iff.mp h
    rcases updateById_cases (id_renewed valueJson metadataJson expiresAt) hupdate with
      ⟨rfl, rfl⟩ | ⟨row, rfl, hfree, hrow, rfl⟩
    · exact .idle (fun _ => And.left) (fun _ => rfl) fun _ => rfl
    · exact .wrote (fun _ => And.left) (fun _ => rfl) rfl (.updated hfree hrow)
  | deleteRecord record deletedAt =>
    obtain ⟨⟨_, records⟩, hupdate, ⟨⟩⟩ := Option.map_eq_some_iff.mp h
    rcases updateById_cases (id_deleted deletedAt) hupdate with
      ⟨rfl, rfl⟩ | ⟨row, rfl, hfree, hrow, rfl⟩
    · exact .idle (fun _ => And.left) (fun _ => rfl) fun _ => rfl
    · exact .wrote (fun _ => And.left) (fun _ => rfl) rfl (.deleted hfree hrow)
  | expireRecord =>
    obtain ⟨records, hupdate, ⟨⟩⟩ := Option.map_eq_some_iff.mp h
    exact .expired hupdate
  | emit event =>
    simp only [RecordStatement.perform] at h
    split_ifs at h
    · cases h
      exact .suppressed
    · cases h
      exact .emitted
  | commit =>
    cases h
    exact .committed

/-- What a transaction writes, it is free to write. -/
lemma Write.Over.isFree {t : TxTable ℕ RecordRow RecordRow.id} (h : write.Over i t) :
    t.isFree i write.row.id = true := by
  cases h with
  | created hinsert =>
    obtain ⟨-, hnone, -, -⟩ := insertUnique_ok hinsert
    simp [TxTable.isFree, Write.row, hnone]
  | updated hfree hrow | deleted hfree hrow => exact (Table.key_of_get? hrow).symm ▸ hfree

/-- The rows of other transactions are as before. -/
lemma Effect.keeps (h : Effect i s op answer s') (hij : j ≠ i) : s.records.Keeps j s'.records := by
  cases h with
  | idle | suppressed | emitted => exact .refl j _
  | marked hupdate => exact keeps_updateRow hij (id_deleted _) hupdate
  | expired hupdate => exact keeps_updateNow j hupdate
  | wrote _ _ _ hover => exact keeps_write hij hover.isFree
  | committed => exact keeps_commit hij

/-- No two records that are not deleted have the same key. -/
lemma Effect.indexed (h : Effect i s op answer s') (hindexed : s.records.Indexed RecordRow.entry) :
    s'.records.Indexed RecordRow.entry := by
  cases h with
  | idle | suppressed | emitted => exact hindexed
  | marked hupdate => exact hindexed.updateRow (id_deleted _) (fun _ _ => entry_of_deleted) hupdate
  | expired hupdate => exact hindexed.updateNow (fun _ _ => entry_of_deleted) hupdate
  | wrote _ _ _ hover =>
    cases hover with
    | created hinsert => exact hindexed.insertUnique hinsert
    | updated hfree hrow =>
      exact hindexed.write_seen hfree hrow ((id_renewed _ _ _ _).trans (Table.key_of_get? hrow))
        fun _ => id
    | deleted hfree hrow =>
      exact hindexed.write_seen hfree hrow ((id_deleted _ _).trans (Table.key_of_get? hrow))
        fun _ => entry_of_deleted
  | committed => exact hindexed.commit i

/-- What others do to the records. -/
lemma change_cases {change : Change} (h : change.perform s = some s') :
    s'.log = s.log ∧ (s'.records = s.records ∨ ∃ id p,
      s.records.updateNow id p (RecordRow.deleted s.clock) = some s'.records) := by
  cases change with
  | tick =>
    obtain ⟨-, ⟨⟩⟩ := Option.ite_none_right_eq_some.mp h
    exact ⟨rfl, .inl rfl⟩
  | delete | expire =>
    obtain ⟨records, hupdate, rfl⟩ := Option.map_eq_some_iff.mp h
    exact ⟨rfl, .inr ⟨_, _, hupdate⟩⟩

lemma keeps_of_change {change : Change} (h : change.perform s = some s') (j : ℕ) :
    s.records.Keeps j s'.records := by
  obtain ⟨-, heq | ⟨id, p, hupdate⟩⟩ := change_cases h
  · exact heq ▸ .refl j _
  · exact keeps_updateNow j hupdate

lemma indexed_step (hindexed : w.shared.records.Indexed RecordRow.entry)
    (hstep : OperationStep assertDataStoreValue requests w event w') :
    w'.shared.records.Indexed RecordRow.entry := by
  cases hstep with
  | start => exact hindexed
  | perform oracle _ _ _ hperform => exact (effect_of_perform hperform).indexed hindexed
  | ret | fail | crash => exact hindexed.rollback _
  | other hother =>
    obtain ⟨-, heq | ⟨id, p, hupdate⟩⟩ := change_cases hother
    · exact heq ▸ hindexed
    · exact hindexed.updateNow (fun _ _ => entry_of_deleted) hupdate

/-! ## The invariant -/

/-- What a row that is written makes of the committed one: `seen` is the row that the transaction
saw, which is the committed one unless the transaction has marked it. -/
inductive Write.Replaces : Option RecordRow → Option RecordRow → Write → Prop where
  | created {row : RecordRow} (hversion : row.version = 1) : Replaces none none (.created row)
  | updated {old seen active row : RecordRow} (hseen : seen.version = old.version)
      (hsame : seen.deletedAt = none → old = seen) (hversion : row.version = seen.version + 1) :
      Replaces (some old) (some seen) (.updated active row)
  | deleted {old seen record row : RecordRow} (hseen : seen.version = old.version)
      (hsame : seen.deletedAt = none → old = seen) (hversion : row.version = seen.version)
      (hid : record.id = row.id) (hdeleted : row.deletedAt ≠ none) :
      Replaces (some old) (some seen) (.deleted record row)

/-- A condition on what an operation writes, and on the row that it sees then. -/
abbrev WriteRule : Type := OperationRequest → Option RecordRow → Write → Prop

variable {rule : WriteRule}

/-- The row that is seen before a write. -/
def Data.seenBy (s : Data) (i : ℕ) (write : Write) : Option RecordRow :=
  write.read?.bind fun read => (s.records.seen i).get? read.id

/-- What is written keeps to the rule. -/
def Allows (rule : WriteRule) (requests : ℕ → OperationRequest) (s : Data) : OperationEvent → Prop
  | .perform i op answer => ∀ write, writeOf op answer = some write →
      rule (requests i) (s.seenBy i write) write
  | _ => True

/-- What the protocol asks of a write. -/
def Write.IsDue (request : OperationRequest) (readAt : Option ℕ) : Write → Prop
  | created _ => True
  | updated active _ => Fits request readAt active
  | deleted .. => ∃ deletion, request = .delete deletion

/-- What an operation has written replaces what is committed, and kept to the rule. -/
structure Write.IsGood (rule : WriteRule) (s : Data) (view : OperationView) (write : Write) :
    Prop where
  isDue : write.IsDue view.request view.readAt
  replaces : ∃ seen, rule view.request seen write ∧
    write.Replaces (s.records.committed.get? write.row.id) seen

/-- The row is only marked as deleted. -/
def Data.IsMarked (s : Data) (row : RecordRow) : Prop :=
  ∃ old, s.records.committed.get? row.id = some old ∧ row.version = old.version ∧
    row.deletedAt ≠ none

/-- What an operation has written. -/
structure HeldBy (rule : WriteRule) (requests : ℕ → OperationRequest) (s : Data) (i : ℕ)
    (view : Option OperationView) : Prop where
  asked : ∀ v, view = some v → v.request = requests i
  rows : ∀ {k wr}, s.records.written.get? k = some wr → wr.owner = i →
    ∃ v, view = some v ∧ ((∃ write, v.wrote = some write ∧ write.row = wr.row) ∨ s.IsMarked wr.row)
  wrote : ∀ {v write}, view = some v → v.wrote = some write →
    s.records.written.get? write.row.id = some ⟨i, write.row⟩ ∧ write.IsGood rule s v

/-- What all operations have written. -/
def Held (rule : WriteRule) (requests : ℕ → OperationRequest) (w : OperationViews) : Prop :=
  ∀ i, HeldBy rule requests w.shared i (w.view i)

lemma HeldBy.keeps {view : Option OperationView} (h : HeldBy rule requests s i view)
    (hkeeps : s.records.Keeps i s'.records) : HeldBy rule requests s' i view where
  asked := h.asked
  rows {k wr} hwr howner := by
    have hold := hkeeps.back hwr howner
    obtain ⟨v, hv, hcase⟩ := h.rows hold howner
    refine ⟨v, hv, hcase.imp_right ?_⟩
    rintro ⟨old, hcommitted, hversion⟩
    obtain rfl : wr.row.id = k := key_of_written hold
    exact ⟨old, (hkeeps.written hold howner).2 ▸ hcommitted, hversion⟩
  wrote {v write} hv hwrote := by
    obtain ⟨hwritten, hdue, hreplaces⟩ := h.wrote hv hwrote
    obtain ⟨hwritten', hcommitted⟩ := hkeeps.written hwritten rfl
    exact ⟨hwritten', hdue, hcommitted.symm ▸ hreplaces⟩

/-- An operation that has written nothing but marks. -/
lemma heldBy_of_marked {view : Option OperationView}
    (hasked : ∀ v, view = some v → v.request = requests i)
    (hwrote : ∀ v, view = some v → v.wrote = none)
    (hrows : ∀ {k wr}, s.records.written.get? k = some wr → wr.owner = i →
      view ≠ none ∧ s.IsMarked wr.row) : HeldBy rule requests s i view where
  asked := hasked
  rows hwr howner := by
    obtain ⟨v, hv⟩ := Option.ne_none_iff_exists'.mp (hrows hwr howner).1
    exact ⟨v, hv, .inr (hrows hwr howner).2⟩
  wrote {v write} hv hsome := by
    simp [hwrote v hv] at hsome

lemma request_next (view : OperationView) (op : RecordStatement) (answer : RecordAnswer op) :
    (operationProtocol.next view op answer).request = view.request := by
  cases op <;> rfl

section

variable (h : HeldBy rule requests s i (some view))
include h

/-- Before it writes, an operation has only marked rows. -/
lemma HeldBy.isMarked (hwrote : view.wrote = none) {k : String} {wr : Written ℕ RecordRow}
    (hwr : s.records.written.get? k = some wr) (howner : wr.owner = i) : s.IsMarked wr.row := by
  obtain ⟨v, hv, hcase⟩ := h.rows hwr howner
  cases hv
  refine hcase.resolve_left ?_
  rintro ⟨write, hsome, -⟩
  simp [hwrote] at hsome

/-- The row that an operation is about to change has the version of the committed one; if it is not
deleted, it is the committed one. -/
lemma HeldBy.seen_cases (hwrote : view.wrote = none) {id : String} {row : RecordRow}
    (hrow : (s.records.seen i).get? id = some row) :
    ∃ old, s.records.committed.get? id = some old ∧ row.version = old.version ∧
      (row.deletedAt = none → old = row) := by
  rcases TxTable.seen_cases hrow with ⟨wr, hwr, howner, rfl⟩ | ⟨-, hcommitted⟩
  · obtain ⟨old, hold, hversion, hdeleted⟩ := h.isMarked hwrote hwr howner
    obtain rfl : wr.row.id = id := key_of_written hwr
    exact ⟨old, hold, hversion, fun hnone => absurd hnone hdeleted⟩
  · exact ⟨row, hcommitted, rfl, fun _ => rfl⟩

/-- What an operation is about to write replaces what is committed. -/
lemma HeldBy.replaces (hwrote : view.wrote = none) (hover : write.Over i s.records) :
    write.Replaces (s.records.committed.get? write.row.id) (s.seenBy i write) := by
  cases hover with
  | created hinsert =>
    obtain ⟨hfresh, -⟩ := insertUnique_ok hinsert
    rw [Write.row, hfresh]
    exact .created rfl
  | @updated active row _ _ _ hfree hrow =>
    obtain ⟨old, hold, hversion, hsame⟩ := h.seen_cases hwrote hrow
    rw [← Table.key_of_get? hrow] at hold
    change Write.Replaces (s.records.committed.get? row.id) ((s.records.seen i).get? active.id) _
    rw [hold, hrow]
    exact .updated hversion hsame rfl
  | @deleted record row _ hfree hrow =>
    obtain ⟨old, hold, hversion, hsame⟩ := h.seen_cases hwrote hrow
    have hid : row.id = record.id := Table.key_of_get? hrow
    rw [← hid] at hold
    change Write.Replaces (s.records.committed.get? row.id) ((s.records.seen i).get? record.id) _
    rw [hold, hrow]
    exact .deleted hversion hsame rfl hid.symm (by simp [RecordRow.deleted])

/-- What an operation has written after one of its own statements. -/
lemma HeldBy.perform (hok : operationProtocol.ok view op) (heffect : Effect i s op answer s')
    (hguard : Allows rule requests s (.perform i op answer)) :
    HeldBy rule requests s' i (some (operationProtocol.next view op answer)) := by
  have hasked := (request_next view op answer).trans (h.asked view rfl)
  have hasked' : ∀ v, some (operationProtocol.next view op answer) = some v →
      v.request = requests i := fun v hv => Option.some.inj hv ▸ hasked
  cases heffect with
  | idle hclean hnext =>
    have hwrote := (hclean view hok).1
    exact heldBy_of_marked hasked' (fun v hv => Option.some.inj hv ▸ (hnext view).trans hwrote)
      fun hwr howner => ⟨nofun, h.isMarked hwrote hwr howner⟩
  | marked hupdate =>
    refine heldBy_of_marked hasked' (fun v hv => Option.some.inj hv ▸ hok.1) fun {k wr} hwr howner => ?_
    refine ⟨nofun, ?_⟩
    rcases updateRow_cases hupdate with ⟨-, rfl⟩ | ⟨-, row, -, hrow, -, rfl⟩
    · exact h.isMarked hok.1 hwr howner
    · rcases written_write_cases hwr with ⟨-, rfl⟩ | ⟨-, hwr⟩
      · obtain ⟨old, hold, hversion, -⟩ := h.seen_cases hok.1 hrow
        rw [← Table.key_of_get? hrow] at hold
        exact ⟨old, hold, hversion, by simp [RecordRow.deleted]⟩
      · exact h.isMarked hok.1 hwr howner
  | expired hupdate => exact h.keeps (keeps_updateNow i hupdate)
  | @wrote _ _ write hclean hnext hwrites hover =>
    have hwrote := (hclean view hok).1
    have hdue : write.IsDue view.request view.readAt := by
      cases op with
      | createRecord =>
        cases answer <;> cases hwrites
        trivial
      | updateRecord | deleteRecord =>
        cases answer <;> cases hwrites
        exact hok.2
      | _ => cases hwrites
    have hgood := hguard write hwrites
    rw [hnext view]
    refine ⟨hnext view ▸ hasked', fun {k wr} hwr howner => ⟨_, rfl, ?_⟩, fun {v write'} hv hsome => ?_⟩
    · rcases written_write_cases hwr with ⟨-, rfl⟩ | ⟨-, hwr⟩
      · exact .inl ⟨write, rfl, rfl⟩
      · exact .inr (h.isMarked hwrote hwr howner)
    · cases hv
      cases hsome
      exact ⟨written_write _ _ rfl, hdue, _, h.asked view rfl ▸ hgood, h.replaces hwrote hover⟩
  | suppressed | emitted =>
    refine ⟨hasked', fun hwr howner => ?_, fun {v write} hv hsome => ?_⟩
    · obtain ⟨v, hv, hcase⟩ := h.rows hwr howner
      cases hv
      exact ⟨_, rfl, hcase⟩
    · cases hv
      obtain ⟨hwritten, hgood⟩ := h.wrote rfl hsome
      exact ⟨hwritten, hgood.isDue, hgood.replaces⟩
  | committed =>
    exact heldBy_of_marked hasked' (fun v hv => Option.some.inj hv ▸ rfl)
      fun hwr howner => absurd howner (owner_ne_of_commit hwr)

end

lemma Held.step (h : Held rule requests w)
    (hstep : OperationStep assertDataStoreValue requests w event w')
    (hguard : Allows rule requests w.shared event) : Held rule requests w' := by
  refine hstep.members h (fun i _ hidle => ?_) (fun i op answer s' view hevent hperf hheld => ?_)
    (fun i => ?_) (fun i j op answer s' view v hji hperf hheld => ?_)
    (fun i j v hji hheld => hheld.keeps (keeps_rollback hji))
    fun change s' j v hother hheld => hheld.keeps (keeps_of_change hother j)
  · refine heldBy_of_marked ?_ ?_ fun hwr howner => ?_
    · rintro _ ⟨⟩
      rfl
    · rintro _ ⟨⟩
      rfl
    · obtain ⟨v, hv, -⟩ := hidle.rows hwr howner
      cases hv
  · subst hevent
    obtain ⟨oracle, hperform⟩ := hperf.perform
    exact hheld.perform hperf.ok (effect_of_perform hperform) hguard
  · exact heldBy_of_marked (by rintro _ ⟨⟩) (by rintro _ ⟨⟩)
      fun hwr howner => absurd howner (owner_ne_of_rollback hwr)
  · obtain ⟨oracle, hperform⟩ := hperf.perform
    exact hheld.keeps ((effect_of_perform hperform).keeps hji)

/-- Nothing has been written. -/
lemma held_idle {clock : ℕ} {records : Table RecordRow RecordRow.id} {log : TxLog ℕ RecordEvent} :
    Held rule requests (.idle ⟨clock, .settled records, log⟩) := fun _ =>
  heldBy_of_marked (by rintro _ ⟨⟩) (by rintro _ ⟨⟩) (by rintro _ _ ⟨⟩)

/-! ## All operations -/

variable {c c' : Crew ℕ Data RecordStatement RecordAnswer OperationError OperationResult}

/-- A crew of operations and what is known of them. -/
abbrev OperationSeen (c : Crew ℕ Data RecordStatement RecordAnswer OperationError OperationResult)
    (w : OperationViews) : Prop :=
  c.Seen operationProtocol (fun _ _ => True) (fun _ _ => True) w

lemma operation_invariant {guard : Data → OperationEvent → Prop}
    (inv : List OperationEvent → OperationViews → Prop) (hinit : inv [] w)
    (hkeep : ∀ events w event w', inv events w →
      OperationStep assertDataStoreValue requests w event w' → guard w.shared event →
      inv (events ++ [event]) w')
    (hseen : OperationSeen c w)
    (hrun : Run (CrewStep.Guarded (operations assertDataStoreValue requests) guard) c events c') :
    ∃ w' : OperationViews, inv events w' ∧ OperationSeen c' w' := by
  refine CrewStep.Guarded.invariant (fun i _ => proper_operation (requests i)) inv hinit hkeep hseen
    hrun fun i op answer hmem => ?_
  obtain ⟨_, _, _, hperform⟩ := CrewStep.Guarded.performed hrun hmem
  -- What an operation finds is the record of its key.
  cases op with
  | findRecord =>
    cases hperform
    exact fun row hrow => List.find?_some hrow
  | _ => trivial

end Flowmind.DataStores
