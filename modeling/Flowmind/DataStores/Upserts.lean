import Flowmind.DataStores.Operations

/-!
# Versions of records

* `upsert_versions` — an upsert that succeeds raises the version of one record by one, or inserts a
  record with version one; if it insists on a version, that was the version of the record, and no
  two upserts of a record that insist on the same version succeed.  This holds as long as a record
  is still as it was read when such an upsert updates it, and no such upsert inserts a record.
* `both_upserts_succeed` — what happens otherwise.

The version of a record changes with a commit only (`HeldBy.commit_cases`), and never goes down
(`version_le_step`).  What was read when a row was written is known from `HeldBy`, and when an
upsert looked at the clock from `Timed`.
-/

namespace Flowmind.DataStores

open Program Store TxTable
open CrewAction (goes)

variable {assertDataStoreValue : Json → Except String Json} {view : OperationView}
  {requests : ℕ → OperationRequest} {w w' : OperationViews} {event : OperationEvent}
  {events : List OperationEvent} {s s' : Data} {i : ℕ} {id : String} {rule : WriteRule}

/-- When an upsert that insists on a version updates a record, the record is as it was read; and
such an upsert inserts no record. -/
def Unchanged (requests : ℕ → OperationRequest) (s : Data) : OperationEvent → Prop
  | .perform i (.updateRecord active ..) _ => (requests i).expected? ≠ none →
      ((s.records.seen i).get? active.id).map (·.stamp) = some active.stamp
  | .perform i (.createRecord _) (.ok _) => (requests i).expected? = none
  | _ => True

/-- What an upsert that insists on a version may write. -/
def insisting : WriteRule
  | request, _, .created _ => request.expected? = none
  | request, seen, .updated active _ =>
    request.expected? ≠ none → seen.map (·.stamp) = some active.stamp
  | _, _, .deleted .. => True

lemma allows_of_unchanged (h : Unchanged requests s event) : Allows insisting requests s event := by
  cases event with
  | perform i op answer =>
    intro write hwrites
    cases op with
    | createRecord | updateRecord =>
      cases answer <;> cases hwrites
      exact h
    | deleteRecord =>
      cases answer <;> cases hwrites
      trivial
    | _ => cases hwrites
  | _ => trivial

/-- An operation has looked at the clock when it says. -/
def Timed (events : List OperationEvent) (w : OperationViews) : Prop :=
  ∀ i view (t : ℕ), w.view i = some view → view.readAt = some t → .perform i .now t ∈ events

lemma Timed.step (h : Timed events w)
    (hstep : OperationStep assertDataStoreValue requests w event w') :
    Timed (events ++ [event]) w' := by
  intro i view t hview ht
  rcases hstep.view_cases hview with
    ⟨hview, -⟩ | ⟨_, -, rfl⟩ | ⟨op, answer, before, rfl, hperf, rfl⟩
  · exact List.mem_append_left _ (h i view t hview ht)
  · cases ht
  · cases op with
    | now =>
      cases ht
      simp
    | _ => exact List.mem_append_left _ (h i before t hperf.view ht)

/-! ## Versions -/

/-- The version of a record that is committed. -/
def Data.version? (s : Data) (id : String) : Option ℕ :=
  (s.records.committed.get? id).map (·.version)

/-- What the commit of an operation does to the version of a record. -/
lemma HeldBy.commit_cases {write : Write} (h : HeldBy rule requests s i (some view))
    (hwrote : view.wrote = some write) (id : String) :
    (id = write.row.id ∧ ((s.records.commit i).committed.get? id).map (·.version) =
      some write.row.version) ∨
    id ≠ write.row.id ∧
      ((s.records.commit i).committed.get? id).map (·.version) = s.version? id := by
  obtain ⟨hwritten, -⟩ := h.wrote rfl hwrote
  rw [get?_commit]
  by_cases hid : id = write.row.id
  · subst hid
    rw [get?_seen_of_written hwritten rfl]
    exact .inl ⟨rfl, rfl⟩
  · refine .inr ⟨hid, ?_⟩
    cases hwr : s.records.written.get? id with
    | none => rw [get?_seen_of_not (by simp [hwr]), Data.version?]
    | some wr =>
      by_cases howner : wr.owner = i
      · rw [get?_seen_of_written hwr howner]
        obtain rfl := key_of_written hwr
        obtain ⟨v, hv, hcase⟩ := h.rows hwr howner
        cases hv
        rcases hcase with ⟨write', hwrote', hrow⟩ | ⟨old, hold, hversion, -⟩
        · cases hwrote.symm.trans hwrote'
          exact absurd (congrArg RecordRow.id hrow).symm hid
        · rw [Data.version?, hold, Option.map_some, hversion, Option.map_some]
      · rw [get?_seen_of_not (by simpa [hwr] using howner), Data.version?]

/-- A row that is marked as deleted keeps its version. -/
lemma version?_updateNow {id' : String} {p : RecordRow → Bool} {now : ℕ}
    (h : s.records.updateNow id' p (RecordRow.deleted now) = some s'.records) :
    s'.version? id = s.version? id := by
  obtain ⟨-, -, hcommitted⟩ := updateNow_cases h
  rw [Data.version?, hcommitted, Option.map_map]
  congr 1
  funext row
  simp only [Function.comp_apply]
  split_ifs <;> rfl

/-- The version of a record never goes down. -/
lemma version_le_step (h : Held rule requests w)
    (hstep : OperationStep assertDataStoreValue requests w event w') {version : ℕ}
    (hversion : w.shared.version? id = some version) :
    ∃ version', w'.shared.version? id = some version' ∧ version ≤ version' := by
  have hsame : w'.shared.version? id = w.shared.version? id →
      ∃ version', w'.shared.version? id = some version' ∧ version ≤ version' :=
    fun heq => ⟨version, heq.trans hversion, le_rfl⟩
  cases hstep with
  | start | ret | fail | crash => exact hsame rfl
  | @perform i view op answer s' oracle hview hok hrely hperform =>
    cases effect_of_perform hperform with
    | idle | suppressed | emitted | wrote => exact hsame rfl
    | marked hupdate =>
      rcases updateRow_cases hupdate with ⟨-, rfl⟩ | ⟨-, row, -, -, -, rfl⟩
      · exact hsame rfl
      · exact hsame rfl
    | expired hupdate => exact hsame (version?_updateNow hupdate)
    | committed =>
      obtain ⟨write, hwrote⟩ := Option.ne_none_iff_exists'.mp hok.1
      have hheld : HeldBy rule requests w.shared i (some view) := hview ▸ h i
      rcases hheld.commit_cases hwrote id with ⟨rfl, hnew⟩ | ⟨-, heq⟩
      · refine ⟨_, hnew, ?_⟩
        obtain ⟨-, -, seen, -, hreplaces⟩ := hheld.wrote rfl hwrote
        unfold Data.version? at hversion
        generalize w.shared.records.committed.get? write.row.id = old at hversion hreplaces
        cases hreplaces with
        | created => cases hversion
        | updated hseen _ hnext | deleted hseen _ hnext =>
          cases hversion
          simp only [Write.row]
          omega
      · exact hsame heq
  | other hother =>
    obtain ⟨-, heq | ⟨id', p, hupdate⟩⟩ := change_cases hother
    · exact hsame (by rw [Data.version?, heq, Data.version?])
    · exact hsame (version?_updateNow hupdate)

/-! ## All upserts -/

/-- The invariant of a run. -/
structure Kept (requests : ℕ → OperationRequest) (events : List OperationEvent)
    (w : OperationViews) : Prop where
  held : Held insisting requests w
  timed : Timed events w
  indexed : w.shared.records.Indexed RecordRow.entry

lemma Kept.step (h : Kept requests events w)
    (hstep : OperationStep assertDataStoreValue requests w event w')
    (hguard : Unchanged requests w.shared event) : Kept requests (events ++ [event]) w' :=
  ⟨h.held.step hstep (allows_of_unchanged hguard), h.timed.step hstep, indexed_step h.indexed hstep⟩

/-- No two records that are not deleted have the same key. -/
def UniqueEntries (records : Table RecordRow RecordRow.id) : Prop :=
  ∀ {id id' row row' entry}, records.get? id = some row → records.get? id' = some row' →
    row.entry = some entry → row'.entry = some entry → id = id'

/-- Before anybody is at work. -/
lemma kept_idle {clock : ℕ} {records : Table RecordRow RecordRow.id} {log : TxLog ℕ RecordEvent}
    (hunique : UniqueEntries records) :
    Kept requests [] (.idle ⟨clock, .settled records, log⟩) where
  held := held_idle
  timed := by
    rintro i view t ⟨⟩
  indexed := ⟨hunique, by rintro _ _ _ _ _ ⟨⟩, by rintro _ _ _ _ _ ⟨⟩⟩

variable {c c' : Crew ℕ Data RecordStatement RecordAnswer OperationError OperationResult}

/-- What an operation that succeeds does to a record: the version is raised by one, or the record is
new, or it is deleted.  If an upsert insists on a version, that was the version, and the record had
not expired when it looked. -/
inductive Outcome (events : List OperationEvent) (i : ℕ) (request : OperationRequest) (s s' : Data)
    (id : String) : Prop where
  | updated (old : RecordRow) (hold : s.records.committed.get? id = some old)
      (hversion : s'.version? id = some (old.version + 1))
      (hexpected : ∀ version, request.expected? = some version → old.version = version ∧
        request.finds old = true ∧ ∃ t : ℕ, .perform i .now t ∈ events ∧ old.isExpired t = false)
  | created (hnone : s.version? id = none) (hversion : s'.version? id = some 1)
      (hplain : request.expected? = none)
  | deleted (hdelete : ∃ deletion, request = .delete deletion)
      (hversion : s'.version? id = s.version? id)

/-- The same columns, the same answers. -/
lemma of_stamp_eq {old active : RecordRow} (h : old.stamp = active.stamp)
    (request : OperationRequest) (t : ℕ) :
    request.finds old = request.finds active ∧ old.isExpired t = active.isExpired t ∧
      old.version = active.version ∧ old.deletedAt = active.deletedAt := by
  simp only [RecordRow.stamp, Stamp.mk.injEq] at h
  obtain ⟨-, horganization, hstore, hkey, hexpires, hversion, hdeleted⟩ := h
  cases request <;> simp [OperationRequest.finds, RecordRow.isOf, RecordRow.isExpired,
    horganization, hstore, hkey, hexpires, hversion, hdeleted]

lemma OperationRequest.deletedAt_of_finds {request : OperationRequest} {row : RecordRow}
    (h : request.finds row = true) : row.deletedAt = none := by
  cases request <;>
    exact of_decide_eq_true (Bool.and_eq_true_iff.mp h).2

/-- The commit of an operation. -/
lemma Kept.outcome (h : Kept requests events w) (hseen : OperationSeen c w)
    (hstep : CrewStep (operations assertDataStoreValue requests) c (.perform i .commit ()) c') :
    ∃ id, Outcome events i (requests i) c.shared c'.shared id ∧
      ∀ other, other ≠ id → c'.shared.version? other = c.shared.version? other := by
  obtain ⟨view, _, hview, hok, hperform⟩ := CrewStep.performs hseen hstep
  obtain ⟨-, hshared⟩ := Prod.mk.inj (Option.some.inj hperform)
  obtain ⟨write, hwrote⟩ := Option.ne_none_iff_exists'.mp hok.1
  have hheld : HeldBy insisting requests w.shared i (some view) := hview ▸ h.held i
  have hcases := hheld.commit_cases hwrote
  obtain ⟨-, hdue, seen, hrule, hreplaces⟩ := hheld.wrote rfl hwrote
  rw [← hseen.shared, ← hshared, ← hheld.asked view rfl]
  refine ⟨write.row.id, ?_, fun other hother => ?_⟩
  · have hversion := ((hcases write.row.id).resolve_right fun hne => hne.1 rfl).2
    generalize hcommitted : w.shared.records.committed.get? write.row.id = old at hreplaces
    cases hreplaces with
    | created hfirst =>
      refine .created ?_ (hversion.trans (congrArg some hfirst)) hrule
      rw [Data.version?, hcommitted, Option.map_none]
    | @updated old seen active row hsame hold hnext =>
      have hfits : Fits view.request view.readAt active := hdue
      refine .updated old hcommitted (hversion.trans (congrArg some (hsame ▸ hnext)))
        fun version hexpected => ?_
      obtain ⟨t, ht, hfresh⟩ := hfits.fresh
      have hstamp := of_stamp_eq (Option.some.inj (hrule (by simp [hexpected]))) view.request t
      obtain rfl := hold (hstamp.2.2.2.trans (OperationRequest.deletedAt_of_finds hfits.finds))
      exact ⟨hstamp.2.2.1.trans (hfits.expected version hexpected), hstamp.1.trans hfits.finds, t,
        h.timed i view t hview ht, hstamp.2.1.trans hfresh⟩
    | deleted hsame _ hnext =>
      refine .deleted hdue (hversion.trans ?_)
      rw [Data.version?, hcommitted, Option.map_some, ← hsame]
      exact congrArg some hnext
  · exact ((hcases other).resolve_left fun heq => hother heq.1).2

/-- A record whose version an upsert changes that insists on a version: it had that version. -/
lemma Outcome.version {other : String} {version : ℕ} (h : Outcome events i (requests i) s s' id)
    (hrest : ∀ other, other ≠ id → s'.version? other = s.version? other)
    (hchanged : s'.version? other ≠ s.version? other)
    (hexpected : (requests i).expected? = some version) :
    s.version? other = some version ∧ s'.version? other = some (version + 1) := by
  obtain rfl : other = id := by
    by_contra hne
    exact hchanged (hrest other hne)
  cases h with
  | updated old hold hversion hold' =>
    obtain ⟨rfl, -⟩ := hold' version hexpected
    exact ⟨by rw [Data.version?, hold, Option.map_some], hversion⟩
  | created _ _ hplain => simp [hplain] at hexpected
  | deleted _ hsame => exact absurd hsame hchanged

/-- **Upserts that insist on a version lose no update**, in every run in which a record is as it was
read when such an upsert updates it, and no such upsert inserts a record: the record of a key is
unique; an upsert that succeeds raises the version of one record by one, or inserts one, and if it
insists on a version, the record had it; and no two upserts that change the same record insist on
the same version. -/
theorem upsert_versions (assertDataStoreValue : Json → Except String Json)
    (requests : ℕ → OperationRequest) (clock : ℕ) (records : Table RecordRow RecordRow.id)
    (log : TxLog ℕ RecordEvent) (hunique : UniqueEntries records) (events : List OperationEvent)
    (c : Crew ℕ Data RecordStatement RecordAnswer OperationError OperationResult)
    (hrun : Run (CrewStep.Guarded (operations assertDataStoreValue requests) (Unchanged requests))
      (.idle ⟨clock, .settled records, log⟩) events c) :
    UniqueEntries c.shared.records.committed ∧
    (∀ i c', CrewStep (operations assertDataStoreValue requests) c (.perform i .commit ()) c' →
      ∃ id, Outcome events i (requests i) c.shared c'.shared id ∧
        ∀ other, other ≠ id → c'.shared.version? other = c.shared.version? other) ∧
    ∀ i c₁ later c₂ j c₃ id version,
      CrewStep (operations assertDataStoreValue requests) c (.perform i .commit ()) c₁ →
      c₁.shared.version? id ≠ c.shared.version? id →
      Run (CrewStep.Guarded (operations assertDataStoreValue requests) (Unchanged requests))
        c₁ later c₂ →
      CrewStep (operations assertDataStoreValue requests) c₂ (.perform j .commit ()) c₃ →
      c₃.shared.version? id ≠ c₂.shared.version? id →
      (requests i).expected? = some version → (requests j).expected? ≠ some version := by
  have hkept : ∀ {events c}, Run (CrewStep.Guarded (operations assertDataStoreValue requests)
      (Unchanged requests)) (.idle ⟨clock, .settled records, log⟩) events c →
      ∃ w, Kept requests events w ∧ OperationSeen c w :=
    fun hrun => operation_invariant (Kept requests) (kept_idle hunique)
      (fun _ _ _ _ h hstep hguard => h.step hstep hguard) Crew.seen_idle hrun
  obtain ⟨w, hw, hseen⟩ := hkept hrun
  refine ⟨hseen.shared ▸ hw.indexed.committed, fun i c' hstep => hw.outcome hseen hstep, ?_⟩
  intro i c₁ later c₂ j c₃ id version hfirst hchanged hlater hsecond hchanged' hi hj
  obtain ⟨_, houtcome, hrest⟩ := hw.outcome hseen hfirst
  have hraised := (houtcome.version hrest hchanged hi).2
  have hrun₁ := hrun.snoc ⟨hfirst, trivial⟩
  obtain ⟨w₁, hw₁, hseen₁⟩ := hkept hrun₁
  -- From then on the record has a later version.
  obtain ⟨w₂', ⟨-, version', hversion', hle⟩, hseen₂'⟩ := operation_invariant
    (fun _ w => Held insisting requests w ∧
      ∃ version', w.shared.version? id = some version' ∧ version + 1 ≤ version')
    ⟨hw₁.held, version + 1, hseen₁.shared ▸ hraised, le_rfl⟩
    (fun _ w event w' ⟨hheld, version', hversion', hle⟩ hstep hguard => by
      obtain ⟨version'', hversion'', hle'⟩ := version_le_step hheld hstep hversion'
      exact ⟨hheld.step hstep (allows_of_unchanged hguard), version'', hversion'', hle.trans hle'⟩)
    hseen₁ hlater
  obtain ⟨w₂, hw₂, hseen₂⟩ := hkept (hrun₁.append hlater)
  obtain ⟨_, houtcome₂, hrest₂⟩ := hw₂.outcome hseen₂ hsecond
  have hsame := (houtcome₂.version hrest₂ hchanged' hj).1
  rw [← hseen₂'.shared, hversion', Option.some.injEq] at hsame
  omega

/-! ## Two upserts at one record -/

/-- An upsert of the worker. -/
def trialUpsert : UpsertRequest where
  caller := .worker
  organizationId := "org"
  dataStoreId := "store"
  key := "key"
  incoming := .num 1
  metadata := .obj []
  expiresAt := none
  mode := .replace
  optimisticConcurrency := false
  expectedVersion := none

/-- Upserts, each of which insists on a version. -/
def trialRequests (expected : ℕ → ℕ) (i : ℕ) : OperationRequest :=
  .upsert { trialUpsert with optimisticConcurrency := true, expectedVersion := some (expected i) }

/-- One record, in its first version. -/
def trialRecords : Table RecordRow RecordRow.id :=
  ⟨[(⟨"org", "store", "key", .num 0, .obj [], none⟩ : NewRecord).row "record"], by simp⟩

lemma uniqueEntries_trialRecords : UniqueEntries trialRecords := by
  intro id id' row row' entry hrow hrow' _ _
  have hid : ∀ {id row}, trialRecords.get? id = some row → id = "record" := by
    intro id row hrow
    obtain ⟨hmem, rfl⟩ := Table.get?_eq_some_iff.mp hrow
    obtain rfl := List.mem_singleton.mp hmem
    rfl
  exact (hid hrow).trans (hid hrow').symm

abbrev trialUpserts (expected : ℕ → ℕ) :
    Setting ℕ Unit Data RecordStatement RecordAnswer OperationError OperationResult
      OperationOracle Change :=
  operations .ok (trialRequests expected)

/-- The operation commits. -/
def isCommit (i : ℕ) : OperationEvent → Bool
  | .perform j .commit _ => decide (j = i)
  | _ => false

lemma eq_of_isCommit (h : isCommit i event = true) : event = .perform i .commit () := by
  unfold isCommit at h
  split at h
  · obtain rfl := of_decide_eq_true h
    rfl
  · cases h

instance (requests : ℕ → OperationRequest) (s : Data) : DecidablePred (Unchanged requests s) :=
  fun event => by
    unfold Unchanged
    split <;> infer_instance

/-- Two upserts in turn, each of which insists on the version that there is. -/
theorem upsert_versions_in_turn :
    ∃ events c c₁ later c₂ c₃,
      Run (CrewStep.Guarded (trialUpserts (· + 1)) (Unchanged (trialRequests (· + 1))))
        (.idle ⟨0, .settled trialRecords, .empty⟩) events c ∧
      CrewStep (trialUpserts (· + 1)) c (.perform 0 .commit ()) c₁ ∧
      Run (CrewStep.Guarded (trialUpserts (· + 1)) (Unchanged (trialRequests (· + 1)))) c₁ later c₂ ∧
      CrewStep (trialUpserts (· + 1)) c₂ (.perform 1 .commit ()) c₃ ∧
      c.shared.version? "record" = some 1 ∧ c₁.shared.version? "record" = some 2 ∧
      c₂.shared.version? "record" = some 2 ∧ c₃.shared.version? "record" = some 3 ∧
      (∃ id, Outcome events 0 (trialRequests (· + 1) 0) c.shared c₁.shared id) ∧
      (trialRequests (· + 1) 1).expected? ≠ some 1 := by
  have hscript : (script (Crew.actIf (trialUpserts (· + 1)) (Unchanged (trialRequests (· + 1))))
      (.idle ⟨0, .settled trialRecords, .empty⟩) ([.start 0 ()] ++ goes 0 5)).any (fun done =>
        done.2.shared.version? "record" = some 1 ∧
        (done.2.act (trialUpserts (· + 1)) (.go 0 default)).any fun first => isCommit 0 first.1 ∧
          first.2.shared.version? "record" = some 2 ∧
          (script (Crew.actIf (trialUpserts (· + 1)) (Unchanged (trialRequests (· + 1)))) first.2
              ([.go 0 default, .start 1 ()] ++ goes 1 5)).any fun later =>
            later.2.shared.version? "record" = some 2 ∧
            (later.2.act (trialUpserts (· + 1)) (.go 1 default)).any fun second =>
              isCommit 1 second.1 ∧ second.2.shared.version? "record" = some 3) := by decide +kernel
  obtain ⟨events, c, hrun, hbefore, hthen⟩ := Crew.exists_run hscript
  obtain ⟨_, c₁, hfirst, hcommit, hafter, hthen⟩ := Crew.exists_step hthen
  obtain ⟨later, c₂, hlater, hbefore', hthen⟩ := Crew.exists_run hthen
  obtain ⟨_, c₃, hsecond, hcommit', hafter'⟩ := Crew.exists_step hthen
  obtain rfl := eq_of_isCommit hcommit
  obtain rfl := eq_of_isCommit hcommit'
  have hresult := (upsert_versions .ok (trialRequests (· + 1)) 0 trialRecords .empty
    uniqueEntries_trialRecords events c hrun).2
  obtain ⟨id, houtcome, -⟩ := hresult.1 0 c₁ hfirst
  exact ⟨events, c, c₁, later, c₂, c₃, hrun, hfirst, hlater, hsecond, hbefore, hafter, hbefore',
    hafter', ⟨id, houtcome⟩, hresult.2 0 c₁ later c₂ 1 c₃ "record" 1 hfirst
      (fun hsame => absurd (hafter.symm.trans (hsame.trans hbefore)) (by decide)) hlater hsecond
      (fun hsame => absurd (hafter'.symm.trans (hsame.trans hbefore')) (by decide)) rfl⟩

/-- Both upserts have read the first version; the first one has committed the second version when
the second one commits.  And an upsert that insists on the first version inserts a record where
there is none. -/
theorem both_upserts_succeed :
    (∃ events c c', Run (CrewStep (trialUpserts fun _ => 1))
        (.idle ⟨0, .settled trialRecords, .empty⟩) events c ∧
      CrewStep (trialUpserts fun _ => 1) c (.perform 1 .commit ()) c' ∧
      (trialRequests (fun _ => 1) 1).expected? = some 1 ∧
      c.shared.version? "record" = some 2 ∧ c'.shared.version? "record" = some 3) ∧
    ∃ events c c', Run (CrewStep (trialUpserts fun _ => 1)) (.idle ⟨0, .settled .empty, .empty⟩)
        events c ∧
      CrewStep (trialUpserts fun _ => 1) c (.perform 0 .commit ()) c' ∧
      (trialRequests (fun _ => 1) 0).expected? = some 1 ∧
      c.shared.version? "new" = none ∧ c'.shared.version? "new" = some 1 := by
  constructor
  · have hscript : (script (Crew.act (trialUpserts fun _ => 1))
        (.idle ⟨0, .settled trialRecords, .empty⟩)
        ([.start 0 (), .start 1 ()] ++ goes 0 3 ++ goes 1 3 ++ goes 0 3 ++ goes 1 2)).any (fun done =>
          done.2.shared.version? "record" = some 2 ∧
          (done.2.act (trialUpserts fun _ => 1) (.go 1 default)).any fun last =>
            isCommit 1 last.1 ∧ last.2.shared.version? "record" = some 3) := by decide +kernel
    obtain ⟨events, c, hrun, hbefore, hthen⟩ := Crew.exists_free_run hscript
    obtain ⟨_, c', hstep, hcommit, hafter⟩ := Crew.exists_step hthen
    obtain rfl := eq_of_isCommit hcommit
    exact ⟨events, c, c', hrun, hstep, rfl, hbefore, hafter⟩
  · have hscript : (script (Crew.act (trialUpserts fun _ => 1)) (.idle ⟨0, .settled .empty, .empty⟩)
        ([.start 0 ()] ++ goes 0 2 ++ goes 0 2 { id := "new" })).any (fun done =>
          done.2.shared.version? "new" = none ∧
          (done.2.act (trialUpserts fun _ => 1) (.go 0 default)).any fun last =>
            isCommit 0 last.1 ∧ last.2.shared.version? "new" = some 1) := by decide +kernel
    obtain ⟨events, c, hrun, hbefore, hthen⟩ := Crew.exists_free_run hscript
    obtain ⟨_, c', hstep, hcommit, hafter⟩ := Crew.exists_step hthen
    obtain rfl := eq_of_isCommit hcommit
    exact ⟨events, c, c', hrun, hstep, rfl, hbefore, hafter⟩

end Flowmind.DataStores
