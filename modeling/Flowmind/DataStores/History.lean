import Flowmind.DataStores.Upserts

/-!
# The history that record events tell

Every operation that writes a record stores an event about it in the same transaction: the type,
the version of the row, and for an update the version that was read.  A consumer who reads only the
events about a record takes them for its history.

* `Faithful` — the events about a record are a history of it: it is created once and deleted at most
  once, after which nothing follows, and its updates carry the versions in their order.
* `events_faithful` — this holds in every run in which a record is as it was read when an operation
  writes it, and no event is suppressed.
* `overlapping_operations_not_faithful` — what happens otherwise.

A history is told event by event: `Story` is the inductive form of `Faithful`, with the version that
the history has come to and whether it has ended, and `Story.faithful` gets from it what a consumer
relies on.  An operation owes an event as soon as it has written a row, and has it pending in the
log from when it emits it until it commits (`Logged`); the row replaces the committed one, which has
not been touched since it was read (`Held` at the rule `asRead`).  So at a commit the version of the
committed row is the one that the story has come to, and the event that is committed with the row
goes on with the story (`Write.Replaces.story`).  A row that is only marked as deleted has no event,
and keeps its story.  `Recorded` says that the events about each committed row are a story that has
come to its version; every step keeps it.
-/

namespace Flowmind.DataStores

open Program Store TxTable
open InternalEvents (EventType)
open CrewAction (goes)

/-! ## Histories -/

/-- The events with a type. -/
def ofType (type : EventType) (events : List RecordEvent) : List RecordEvent :=
  events.filter fun event => decide (event.type = type)

/-- The events about a record are a history of it. -/
structure Faithful (events : List RecordEvent) : Prop where
  created : (ofType .dataStoreRecordCreated events).length = 1
  deleted : (ofType .dataStoreRecordDeleted events).length ≤ 1
  /-- No event follows a deletion. -/
  last : ∀ before event after, events = before ++ event :: after →
    event.type = .dataStoreRecordDeleted → after = []
  /-- The updates carry the versions from the second one on. -/
  versions : ∃ count, (ofType .dataStoreRecordUpdated events).map (·.data.version) =
    List.range' 2 count
  previous : ∀ event ∈ events, event.type = .dataStoreRecordUpdated →
    event.data.previousVersion = some (event.data.version - 1)

/-- How a history goes on: the version that it has come to, and whether it has ended. -/
inductive Story : List RecordEvent → ℕ → Bool → Prop where
  | created {event : RecordEvent} (htype : event.type = .dataStoreRecordCreated) :
      Story [event] 1 false
  | updated {events : List RecordEvent} {version : ℕ} {event : RecordEvent}
      (before : Story events version false) (htype : event.type = .dataStoreRecordUpdated)
      (hversion : event.data.version = version + 1)
      (hprevious : event.data.previousVersion = some version) :
      Story (events ++ [event]) (version + 1) false
  | deleted {events : List RecordEvent} {version : ℕ} {event : RecordEvent}
      (before : Story events version false) (htype : event.type = .dataStoreRecordDeleted) :
      Story (events ++ [event]) version true

section Story

variable {events : List RecordEvent} {version : ℕ} {ended : Bool} {event : RecordEvent}

lemma ofType_snoc (type : EventType) (events : List RecordEvent) (event : RecordEvent) :
    ofType type (events ++ [event]) =
      ofType type events ++ if event.type = type then [event] else [] := by
  by_cases htype : event.type = type <;> simp [ofType, htype]

section

variable (h : Story events version ended)
include h

lemma Story.length_created : (ofType .dataStoreRecordCreated events).length = 1 := by
  induction h with
  | created htype => simp [ofType, htype]
  | updated _ htype _ _ ih => simp [ofType_snoc, htype, ih]
  | deleted _ htype ih => simp [ofType_snoc, htype, ih]

lemma Story.length_deleted :
    (ofType .dataStoreRecordDeleted events).length = if ended then 1 else 0 := by
  induction h with
  | created htype => simp [ofType, htype]
  | updated _ htype _ _ ih => simp [ofType_snoc, htype, ih]
  | deleted _ htype ih => simp [ofType_snoc, htype, ih]

/-- The updates carry the versions up to the one that the history has come to. -/
lemma Story.versions :
    ∃ count, version = count + 1 ∧
      (ofType .dataStoreRecordUpdated events).map (·.data.version) = List.range' 2 count := by
  induction h with
  | created htype => exact ⟨0, rfl, by simp [ofType, htype]⟩
  | updated _ htype hversion _ ih =>
    obtain ⟨count, rfl, hversions⟩ := ih
    refine ⟨count + 1, rfl, ?_⟩
    rw [ofType_snoc, if_pos htype, List.map_append, hversions, List.range'_concat]
    simp
    omega
  | deleted _ htype ih =>
    obtain ⟨count, hcount, hversions⟩ := ih
    exact ⟨count, hcount, by simp [ofType_snoc, htype, hversions]⟩

lemma Story.previous :
    ∀ event ∈ events, event.type = .dataStoreRecordUpdated →
      event.data.previousVersion = some (event.data.version - 1) := by
  induction h with
  | created htype => simp [htype]
  | updated _ htype hversion hprevious ih =>
    intro event hmem hupdated
    rcases List.mem_append.mp hmem with hmem | hmem
    · exact ih event hmem hupdated
    · obtain rfl := List.mem_singleton.mp hmem
      rw [hprevious, hversion, Nat.add_sub_cancel]
  | deleted _ htype ih =>
    intro event hmem hupdated
    rcases List.mem_append.mp hmem with hmem | hmem
    · exact ih event hmem hupdated
    · obtain rfl := List.mem_singleton.mp hmem
      simp [htype] at hupdated

end

/-- Before a history has ended there is no deletion in it. -/
lemma Story.not_deleted (h : Story events version false) :
    ∀ event ∈ events, event.type ≠ .dataStoreRecordDeleted := by
  have hnone := List.eq_nil_of_length_eq_zero (h.length_deleted.trans rfl)
  intro event hmem htype
  have hin : event ∈ ofType .dataStoreRecordDeleted events :=
    List.mem_filter.mpr ⟨hmem, by simpa using htype⟩
  simp [hnone] at hin

lemma Story.last (h : Story events version ended) {before after : List RecordEvent}
    (hsplit : events = before ++ event :: after) (htype : event.type = .dataStoreRecordDeleted) :
    after = [] := by
  -- A deletion that is not the last event would be one before the end.
  have hend : ∀ {init : List RecordEvent} {last : RecordEvent} {version : ℕ},
      Story init version false → init ++ [last] = before ++ event :: after → after = [] := by
    intro init last version hinit heq
    rcases List.eq_nil_or_concat after with hnil | ⟨rest, final, hafter⟩
    · exact hnil
    · subst hafter
      rw [List.concat_eq_append, ← List.cons_append, ← List.append_assoc] at heq
      have hmem : event ∈ init := by
        rw [List.append_inj_left' heq rfl]
        simp
      exact absurd htype (hinit.not_deleted event hmem)
  cases h with
  | created hcreated =>
    have hmem : event ∈ before ++ event :: after := by simp
    rw [← hsplit] at hmem
    obtain rfl := List.mem_singleton.mp hmem
    simp [hcreated] at htype
  | updated hbefore => exact hend hbefore hsplit
  | deleted hbefore => exact hend hbefore hsplit

lemma Story.faithful (h : Story events version ended) : Faithful events where
  created := h.length_created
  deleted := by
    rw [h.length_deleted]
    split_ifs <;> omega
  last _ _ _ := h.last
  versions := by
    obtain ⟨count, -, hversions⟩ := h.versions
    exact ⟨count, hversions⟩
  previous := h.previous

end Story

/-! ## What the operations have emitted -/

variable {assertDataStoreValue : Json → Except String Json} {view : OperationView}
  {requests : ℕ → OperationRequest} {w w' : OperationViews} {event : OperationEvent}
  {events : List OperationEvent} {s s' : Data} {i j : ℕ} {op : RecordStatement}
  {answer : RecordAnswer op} {write : Write}

/-- The record is as it was read: it has the same version, and it is not deleted. -/
def Data.isAsRead (s : Data) (i : ℕ) (read : RecordRow) : Bool :=
  ((s.records.seen i).get? read.id).any fun row =>
    decide (row.version = read.version) && decide (row.deletedAt = none)

/-- When an operation writes a record, the record is as it was read; and no event is suppressed. -/
def Undisturbed (s : Data) : OperationEvent → Prop
  | .perform i (.updateRecord active ..) _ => s.isAsRead i active = true
  | .perform i (.deleteRecord record _) _ => s.isAsRead i record = true
  | .perform _ (.emit _) (stored : Bool) => stored = true
  | _ => True

/-- What an operation may write: a new record, or one that is as it was read. -/
def asRead : WriteRule := fun _ seen write => ∀ read, write.read? = some read →
  ∃ row, seen = some row ∧ row.version = read.version ∧ row.deletedAt = none

lemma Data.isAsRead_iff {read : RecordRow} : s.isAsRead i read = true ↔
    ∃ row, (s.records.seen i).get? read.id = some row ∧ row.version = read.version ∧
      row.deletedAt = none := by
  simp [Data.isAsRead, Option.any_eq_true]

lemma allows_of_undisturbed (h : Undisturbed s event) : Allows asRead requests s event := by
  cases event with
  | perform i op answer =>
    intro write hwrites read hread
    cases op with
    | createRecord =>
      cases answer <;> cases hwrites
      cases hread
    | updateRecord | deleteRecord =>
      cases answer <;> cases hwrites
      cases hread
      exact Data.isAsRead_iff.mp h
    | _ => cases hwrites
  | _ => trivial

/-- The events that an operation has emitted and not committed. -/
def pendingOf : Option OperationView → List Gist
  | none => []
  | some view => if view.emitted then (view.wrote.map Write.gist).toList else []

/-- The event about what an operation has written is pending once it is emitted, and nothing else
is. -/
def LoggedBy (s : Data) (i : ℕ) (view : Option OperationView) : Prop :=
  (s.log.own i).map RecordEvent.gist = pendingOf view

def Logged (w : OperationViews) : Prop := ∀ i, LoggedBy w.shared i (w.view i)

lemma LoggedBy.of_eq {view : Option OperationView} (h : LoggedBy s i view)
    (heq : s'.log.own i = s.log.own i) : LoggedBy s' i view := by
  rw [LoggedBy, heq]
  exact h

lemma pendingOf_of_not_emitted (h : view.emitted = false) : pendingOf (some view) = [] := by
  simp [pendingOf, h]

lemma emitted_of_clean (hok : operationProtocol.ok view op) (hclean : view.Clean) :
    (operationProtocol.next view op answer).emitted = false := by
  cases op with
  | emit => exact absurd hok.1 (by simp [hclean.1])
  | commit => rfl
  | _ => exact hclean.2

/-- What an operation has pending after one of its own statements. -/
lemma LoggedBy.perform (h : LoggedBy s i (some view)) (hok : operationProtocol.ok view op)
    (heffect : Effect i s op answer s') (hguard : Undisturbed s (.perform i op answer)) :
    LoggedBy s' i (some (operationProtocol.next view op answer)) := by
  unfold LoggedBy at h ⊢
  have hquiet : view.Clean → (s.log.own i).map RecordEvent.gist =
      pendingOf (some (operationProtocol.next view op answer)) := fun hclean => by
    rw [h, pendingOf_of_not_emitted hclean.2,
      pendingOf_of_not_emitted (emitted_of_clean hok hclean)]
  cases heffect with
  | idle hclean | wrote hclean => exact hquiet (hclean view hok)
  | marked | expired => exact hquiet hok
  | suppressed => cases hguard
  | @emitted event =>
    have hafter : pendingOf (some { view with emitted := true }) = [event.gist] := by
      simp [pendingOf, hok.1]
    rw [TxLog.own_add, if_pos rfl, List.map_append, h, pendingOf_of_not_emitted hok.2]
    exact hafter.symm
  | committed =>
    rw [TxLog.own_commit, if_pos rfl]
    rfl

/-- The statements of an operation leave alone what others have pending. -/
lemma Effect.own_eq (h : Effect i s op answer s') (hij : j ≠ i) : s'.log.own j = s.log.own j := by
  cases h with
  | emitted => rw [TxLog.own_add, if_neg hij.symm]
  | committed => exact (TxLog.own_commit _ _ _).trans (if_neg hij.symm)
  | _ => rfl

lemma Logged.step (h : Logged w) (hstep : OperationStep assertDataStoreValue requests w event w')
    (hguard : Undisturbed w.shared event) : Logged w' := by
  refine hstep.members h (fun i _ hidle => hidle)
    (fun i op answer s' view hevent hperf hown => ?_) (fun i => ?_)
    (fun i j op answer s' view v hji hperf hown => ?_) (fun i j v hji hown => ?_)
    fun change s' j v hother hown => ?_
  · subst hevent
    obtain ⟨oracle, hperform⟩ := hperf.perform
    exact hown.perform hperf.ok (effect_of_perform hperform) hguard
  · simp [LoggedBy, operations, TxLog.own_rollback, pendingOf]
  · obtain ⟨oracle, hperform⟩ := hperf.perform
    exact hown.of_eq ((effect_of_perform hperform).own_eq hji)
  · exact hown.of_eq ((TxLog.own_rollback _ _ _).trans (if_neg hji.symm))
  · exact hown.of_eq (by rw [(change_cases hother).1])

/-! ## The history of each record -/

/-- The events about a record, in the order in which they were committed. -/
def Data.about (s : Data) (id : String) : List RecordEvent :=
  s.log.committed.filter fun event => decide (event.data.recordId = id)

/-- The events about a record are its history so far; without a record there are none. -/
structure Data.Recorded (s : Data) : Prop where
  missing : ∀ {id}, s.records.committed.get? id = none → s.about id = []
  present : ∀ {id row}, s.records.committed.get? id = some row →
    ∃ ended, Story (s.about id) row.version ended ∧ (ended = true → row.deletedAt ≠ none)

/-- A row that is only marked as deleted has the same history. -/
lemma Data.Recorded.updateNow {id : String} {p : RecordRow → Bool} {now : ℕ} (h : s.Recorded)
    (hlog : s'.log.committed = s.log.committed)
    (hupdate : s.records.updateNow id p (RecordRow.deleted now) = some s'.records) :
    s'.Recorded := by
  obtain ⟨-, -, hcommitted⟩ := updateNow_cases hupdate
  have habout : ∀ id, s'.about id = s.about id := fun id => by rw [Data.about, hlog, Data.about]
  refine ⟨fun {id} hnone => ?_, fun {id row'} hrow' => ?_⟩
  · rw [hcommitted, Option.map_eq_none_iff] at hnone
    rw [habout, h.missing hnone]
  · rw [hcommitted, Option.map_eq_some_iff] at hrow'
    obtain ⟨row, hrow, rfl⟩ := hrow'
    obtain ⟨ended, hstory, hended⟩ := h.present hrow
    refine ⟨ended, ?_, ?_⟩
    · rw [habout]
      split_ifs <;> exact hstory
    · split_ifs
      · simp [RecordRow.deleted]
      · exact hended

lemma Data.Recorded.of_eq (h : s.Recorded) (hlog : s'.log.committed = s.log.committed)
    (hcommitted : s'.records.committed = s.records.committed) : s'.Recorded where
  missing hnone := by
    rw [Data.about, hlog]
    exact h.missing (hcommitted ▸ hnone)
  present hrow := by
    rw [Data.about, hlog]
    exact h.present (hcommitted ▸ hrow)

/-- The event about a write names the record. -/
lemma Write.Replaces.recordId {old seen : Option RecordRow} (h : write.Replaces old seen) :
    write.gist.recordId = write.row.id := by
  cases h with
  | created | updated => rfl
  | deleted _ _ _ hid => exact hid

/-- A history goes on with the event about what replaces a record that was as it was read. -/
lemma Write.Replaces.story {request : OperationRequest} {old seen : Option RecordRow}
    {event : RecordEvent} {events : List RecordEvent} (h : write.Replaces old seen)
    (hrule : asRead request seen write) (hgist : event.gist = write.gist)
    (hmissing : old = none → events = [])
    (hpresent : ∀ row, old = some row →
      ∃ ended, Story events row.version ended ∧ (ended = true → row.deletedAt ≠ none)) :
    ∃ ended, Story (events ++ [event]) write.row.version ended ∧
      (ended = true → write.row.deletedAt ≠ none) := by
  -- A record that is not deleted has a story that goes on.
  have hgoes : ∀ row, old = some row → row.deletedAt = none → Story events row.version false := by
    intro row hrow hnone
    obtain ⟨ended, hstory, hended⟩ := hpresent row hrow
    cases ended with
    | false => exact hstory
    | true => exact absurd hnone (hended rfl)
  cases h with
  | created hversion =>
    rw [hmissing rfl, Write.row, hversion]
    exact ⟨false, .created (congrArg Gist.type hgist), by simp⟩
  | @updated old seen active row _ hsame hversion =>
    obtain ⟨_, ⟨⟩, hactive, hnone⟩ := hrule active rfl
    obtain rfl := hsame hnone
    have hnew : event.data.version = row.version := congrArg Gist.version hgist
    have hprevious : event.data.previousVersion = some active.version :=
      congrArg Gist.previousVersion hgist
    rw [Write.row, hversion]
    exact ⟨false, .updated (hgoes old rfl hnone) (congrArg Gist.type hgist) (hnew.trans hversion)
      (hprevious.trans (congrArg some hactive.symm)), by simp⟩
  | @deleted old seen record row _ hsame hversion _ hdeleted =>
    obtain ⟨_, ⟨⟩, -, hnone⟩ := hrule record rfl
    obtain rfl := hsame hnone
    rw [Write.row, hversion]
    exact ⟨true, .deleted (hgoes old rfl hnone) (congrArg Gist.type hgist), fun _ => hdeleted⟩

/-- The event of a transaction that is committed comes after those that are. -/
lemma about_commit {record : RecordEvent} (hown : s.log.own i = [record])
    (hlog : s'.log = s.log.commit i) (id : String) :
    s'.about id = if record.data.recordId = id then s.about id ++ [record] else s.about id := by
  by_cases hid : record.data.recordId = id <;> simp [Data.about, hlog, hown, hid]

/-- The commit of an operation. -/
lemma Data.Recorded.commit (h : s.Recorded) (hheld : HeldBy asRead requests s i (some view))
    (hlogged : LoggedBy s i (some view)) (hok : operationProtocol.ok view .commit)
    (hrecords : s'.records = s.records.commit i) (hlog : s'.log = s.log.commit i) :
    s'.Recorded := by
  obtain ⟨write, hwrote⟩ := Option.ne_none_iff_exists'.mp hok.1
  obtain ⟨hwritten, -, seen, hrule, hreplaces⟩ := hheld.wrote rfl hwrote
  rw [LoggedBy, pendingOf, if_pos hok.2, hwrote, Option.map_some, Option.toList_some,
    List.map_eq_singleton_iff] at hlogged
  obtain ⟨record, hown, hgist⟩ := hlogged
  have hid : record.data.recordId = write.row.id :=
    (congrArg Gist.recordId hgist).trans hreplaces.recordId
  have hseen := get?_seen_of_written hwritten rfl
  refine ⟨fun {id} hnone => ?_, fun {id row'} hrow' => ?_⟩
  · rw [hrecords, get?_commit] at hnone
    have hne : record.data.recordId ≠ id := by
      rintro rfl
      simp [hid, hseen] at hnone
    rw [about_commit hown hlog, if_neg hne]
    rw [get?_seen, Option.or_eq_none_iff] at hnone
    exact h.missing hnone.2
  · rw [hrecords, get?_commit] at hrow'
    rw [about_commit hown hlog, hid]
    split_ifs with heq
    · subst heq
      cases hseen.symm.trans hrow'
      exact hreplaces.story hrule hgist h.missing fun _ hsome => h.present hsome
    · rcases seen_cases hrow' with ⟨wr, hwr, howner, rfl⟩ | ⟨-, hcommitted⟩
      · obtain rfl : wr.row.id = id := key_of_written hwr
        obtain ⟨v, hv, hcase⟩ := hheld.rows hwr howner
        cases hv
        rcases hcase with ⟨write', hwrote', hrow⟩ | ⟨old, hold, hversion, hdeleted⟩
        · cases hwrote.symm.trans hwrote'
          exact absurd (congrArg RecordRow.id hrow) heq
        · obtain ⟨ended, hstory, -⟩ := h.present hold
          exact ⟨ended, hversion ▸ hstory, fun _ => hdeleted⟩
      · exact h.present hcommitted

lemma Data.Recorded.step (h : w.shared.Recorded) (hheld : Held asRead requests w)
    (hlogged : Logged w) (hstep : OperationStep assertDataStoreValue requests w event w') :
    w'.shared.Recorded := by
  cases hstep with
  | start => exact h
  | @perform i view op answer s' oracle hview hok _ hperform =>
    cases effect_of_perform hperform with
    | idle | suppressed => exact h
    | wrote | emitted => exact h.of_eq rfl rfl
    | marked hupdate =>
      rcases updateRow_cases hupdate with ⟨-, rfl⟩ | ⟨-, row, -, -, -, rfl⟩
      · exact h.of_eq rfl rfl
      · exact h.of_eq rfl rfl
    | expired hupdate => exact h.updateNow rfl hupdate
    | committed => exact h.commit (hview ▸ hheld i) (hview ▸ hlogged i) hok rfl rfl
  | ret | fail | crash => exact h.of_eq rfl rfl
  | other hother =>
    obtain ⟨hlog, heq | ⟨id, p, hupdate⟩⟩ := change_cases hother
    · exact h.of_eq (by rw [hlog]) (by rw [heq])
    · exact h.updateNow (by rw [hlog]) hupdate

/-! ## All operations -/

/-- No records and no events. -/
def Data.fresh (clock : ℕ) : Data := ⟨clock, .settled .empty, .empty⟩

lemma logged_fresh (clock : ℕ) : Logged (.idle (.fresh clock)) := fun _ => rfl

lemma recorded_fresh (clock : ℕ) : (Data.fresh clock).Recorded where
  missing _ := rfl
  present := by
    rintro _ _ ⟨⟩

/-- **The events about a record are a faithful history of it**, in every run in which a record is as
it was read when an operation writes it, and no event is suppressed. -/
theorem events_faithful (assertDataStoreValue : Json → Except String Json)
    (requests : ℕ → OperationRequest) (clock : ℕ) (events : List OperationEvent)
    (c : Crew ℕ Data RecordStatement RecordAnswer OperationError OperationResult)
    (hrun : Run (CrewStep.Guarded (operations assertDataStoreValue requests) Undisturbed)
      (.idle (.fresh clock)) events c)
    (id : String) (row : RecordRow) (hrow : c.shared.records.committed.get? id = some row) :
    Faithful (c.shared.about id) := by
  obtain ⟨w, ⟨-, -, hrecorded⟩, hseen⟩ := operation_invariant
    (fun _ w => Held asRead requests w ∧ Logged w ∧ w.shared.Recorded)
    ⟨held_idle, logged_fresh clock, recorded_fresh clock⟩
    (fun _ _ _ _ h hstep hguard => ⟨h.1.step hstep (allows_of_undisturbed hguard),
      h.2.1.step hstep hguard, h.2.2.step h.1 h.2.1 hstep⟩) Crew.seen_idle hrun
  rw [← hseen.shared] at hrow ⊢
  obtain ⟨ended, hstory, -⟩ := hrecorded.present hrow
  exact hstory.faithful

/-! ## Operations on one record -/

/-- The first three operations are upserts and the others deletions, by the worker and by the
API. -/
def trialOperation (i : ℕ) : OperationRequest :=
  let caller := if i % 2 = 0 then Caller.api else .worker
  if i ≤ 2 then .upsert { trialUpsert with caller := caller }
  else .delete ⟨caller, "org", "store", "key"⟩

abbrev TrialOperations :
    Setting ℕ Unit Data RecordStatement RecordAnswer OperationError OperationResult
      OperationOracle Change :=
  operations .ok trialOperation

/-- The first operation creates the record. -/
def createsRecord : List (CrewAction ℕ Unit OperationOracle Change) :=
  .start 0 () :: goes 0 6 { id := "record" }

/-- There is a record, and this is what the events say about it. -/
abbrev Data.Tells (s : Data) (gists : List Gist) : Prop :=
  s.records.committed.get? "record" ≠ none ∧ (s.about "record").map RecordEvent.gist = gists

lemma length_ofType (type : EventType) (events : List RecordEvent) :
    (ofType type events).length =
      (events.map RecordEvent.gist).countP fun gist => decide (gist.type = type) := by
  rw [ofType, ← List.countP_eq_length_filter, List.countP_map]
  rfl

instance (s : Data) : DecidablePred (Undisturbed s) := fun event => by
  cases event with
  | perform i op answer => cases op <;> first | exact instDecidableEqBool _ _ | exact instDecidableTrue
  | _ => exact instDecidableTrue

/-- Operations one after the other. -/
theorem events_faithful_sequential :
    ∃ events c row, Run (CrewStep.Guarded TrialOperations Undisturbed) (.idle (.fresh 0)) events c ∧
      c.shared.records.committed.get? "record" = some row ∧
      (c.shared.about "record").length = 3 ∧ Faithful (c.shared.about "record") := by
  have hscript : (script (Crew.actIf TrialOperations Undisturbed) (.idle (.fresh 0))
      (createsRecord ++ [.start 1 ()] ++ goes 1 7 ++ [.start 3 ()] ++ goes 3 7)).any (fun done =>
        done.2.shared.Tells [⟨.dataStoreRecordCreated, "record", 1, none⟩,
          ⟨.dataStoreRecordUpdated, "record", 2, some 1⟩,
          ⟨.dataStoreRecordDeleted, "record", 2, none⟩]) := by decide +kernel
  obtain ⟨events, c, hrun, hsome, hgists⟩ := Crew.exists_run hscript
  obtain ⟨row, hrow⟩ := Option.ne_none_iff_exists'.mp hsome
  have hlength := congrArg List.length hgists
  rw [List.length_map] at hlength
  exact ⟨events, c, row, hrun, hrow, hlength,
    events_faithful .ok trialOperation 0 events c hrun "record" row hrow⟩

/-- **Operations that overlap do not tell a faithful history**: of two updates the second one names
a previous version that it has not replaced, and two deletions emit two events. -/
theorem overlapping_operations_not_faithful :
    (∃ events c row, Run (CrewStep TrialOperations) (.idle (.fresh 0)) events c ∧
      c.shared.records.committed.get? "record" = some row ∧
      ¬Faithful (c.shared.about "record")) ∧
    ∃ events c row, Run (CrewStep TrialOperations) (.idle (.fresh 0)) events c ∧
      c.shared.records.committed.get? "record" = some row ∧
      (ofType .dataStoreRecordDeleted (c.shared.about "record")).length = 2 := by
  constructor
  · have hscript : (script (Crew.act TrialOperations) (.idle (.fresh 0))
        (createsRecord ++ [.start 1 (), .start 2 ()] ++ goes 1 3 ++ goes 2 2 ++ goes 1 4 ++
          goes 2 4)).any (fun done =>
          done.2.shared.Tells [⟨.dataStoreRecordCreated, "record", 1, none⟩,
            ⟨.dataStoreRecordUpdated, "record", 2, some 1⟩,
            ⟨.dataStoreRecordUpdated, "record", 3, some 1⟩]) := by decide +kernel
    obtain ⟨events, c, hrun, hsome, hgists⟩ := Crew.exists_free_run hscript
    obtain ⟨row, hrow⟩ := Option.ne_none_iff_exists'.mp hsome
    refine ⟨events, c, row, hrun, hrow, fun hfaithful => ?_⟩
    have hmem : (⟨.dataStoreRecordUpdated, "record", 3, some 1⟩ : Gist) ∈
        (c.shared.about "record").map RecordEvent.gist := hgists.symm ▸ by decide
    obtain ⟨record, hrecord, hgist⟩ := List.mem_map.mp hmem
    have hprevious := hfaithful.previous record hrecord (congrArg Gist.type hgist)
    rw [show record.data.previousVersion = some 1 from congrArg Gist.previousVersion hgist,
      show record.data.version = 3 from congrArg Gist.version hgist] at hprevious
    simp at hprevious
  · have hscript : (script (Crew.act TrialOperations) (.idle (.fresh 0))
        (createsRecord ++ [.start 3 (), .start 4 ()] ++ goes 3 3 ++ goes 4 3 ++ goes 3 4 ++
          goes 4 4)).any (fun done =>
          done.2.shared.Tells [⟨.dataStoreRecordCreated, "record", 1, none⟩,
            ⟨.dataStoreRecordDeleted, "record", 1, none⟩,
            ⟨.dataStoreRecordDeleted, "record", 1, none⟩]) := by decide +kernel
    obtain ⟨events, c, hrun, hsome, hgists⟩ := Crew.exists_free_run hscript
    obtain ⟨row, hrow⟩ := Option.ne_none_iff_exists'.mp hsome
    refine ⟨events, c, row, hrun, hrow, (length_ofType _ _).trans ?_⟩
    rw [show (c.shared.about "record").map RecordEvent.gist = _ from hgists]
    decide

end Flowmind.DataStores
