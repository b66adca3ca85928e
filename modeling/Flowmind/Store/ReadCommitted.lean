import Flowmind.Store.Table

/-!
# Transactions that read what is committed

A table that several transactions write to at the same time.  What a transaction has written is seen
by the others when it commits; until then the rows are locked: two transactions never have written
the same row, which is the invariant that the table of written rows carries.  Every statement sees
the rows that are committed when it is executed, and those of its own transaction.

* `seen` — what a transaction sees, `updateRow` and `insertUnique` — statements that write (they
  have no result while they have to wait), `commit` and `rollback`.
* `get?_seen`, `seen_cases` — everything is said through the committed and the written row of a
  key.
* `Keeps` — what a transaction has written, and what is committed under it, is not touched by the
  statements of another one.
* `Indexed` — no two rows have the same entry in a unique index, whatever is committed first; an
  update that keeps the entry or drops it (`Indexed.updateRow`), an insertion that looks for the
  entry (`Indexed.insertUnique`), a commit and a rollback preserve this.
* `All` — what is so of every row, committed or written.
-/

namespace Flowmind.Store

/-- A row that a transaction has written. -/
structure Written (ι ρ : Type*) where
  owner : ι
  row : ρ

/-- The rows that are committed, and those that are written and not yet committed. -/
structure TxTable (ι : Type*) (ρ : Type*) {κ : Type*} (key : ρ → κ) where
  committed : Table ρ key
  written : Table (Written ι ρ) fun w => key w.row

namespace TxTable

variable {ι ρ κ υ : Type*} {key : ρ → κ} [DecidableEq ι] [DecidableEq κ] [DecidableEq υ]

/-- Nothing is written that is not committed. -/
def settled (t : Table ρ key) : TxTable ι ρ key := ⟨t, .empty⟩

variable (t : TxTable ι ρ key) (i : ι)

/-- The rows that a transaction has written. -/
def own : Table (Written ι ρ) fun w => key w.row :=
  t.written.filter fun w => decide (w.owner = i)

/-- What a transaction sees. -/
def seen : Table ρ key :=
  ((t.own i).rows.map (·.row)).foldl Table.put t.committed

/-- No other transaction has written the row of the key. -/
def isFree (k : κ) : Bool :=
  (t.written.get? k).all fun w => decide (w.owner = i)

/-- Write a row. -/
def write (row : ρ) : TxTable ι ρ key :=
  { t with written := t.written.put ⟨i, row⟩ }

/-- Change the row of a key if it satisfies a condition, which is checked on the latest row, and
count it.  If another transaction has written the row, this has to wait. -/
def updateRow (k : κ) (p : ρ → Bool) (f : ρ → ρ) : Option (ℕ × TxTable ι ρ key) :=
  if t.isFree i k then
    match (t.seen i).get? k with
    | some row => if p row then some (1, t.write i (f row)) else some (0, t)
    | none => some (0, t)
  else none

/-- Change the row of a key; the row is the answer, if there is one. -/
def updateById (k : κ) (f : ρ → ρ) : Option (Option ρ × TxTable ι ρ key) :=
  (t.updateRow i k (fun _ => true) f).map fun result =>
    (if result.1 = 0 then none else (result.2.seen i).get? k, result.2)

/-- `updateRow` as a transaction of its own, which nobody else has to wait for: if a transaction has
written the row, this has to wait. -/
def updateNow (k : κ) (p : ρ → Bool) (f : ρ → ρ)
    (hkey : ∀ row, key (f row) = key row := by intro _; rfl) : Option (TxTable ι ρ key) :=
  if t.written.get? k = none then
    some { t with committed := t.committed.updateMany (fun r => decide (key r = k) && p r) f hkey }
  else none

/-- Insert a row under a fresh key, as a transaction of its own. -/
def insertNow (row : ρ) : Option (TxTable ι ρ key) :=
  if hfresh : t.committed.get? (key row) = none then
    if t.written.get? (key row) = none then
      some { t with committed := t.committed.insert row hfresh }
    else none
  else none

/-- An entry in a unique index that another transaction is about to add or to drop. -/
def contested (index : ρ → Option υ) (t : TxTable ι ρ key) (i : ι) (entry : υ) : Bool :=
  t.written.rows.any fun w => decide (w.owner ≠ i) && (decide (index w.row = some entry) ||
    (t.committed.get? (key w.row)).any fun row => decide (index row = some entry))

/-- Insert a row under a fresh key, unless its entry in a unique index is taken.  If another
transaction is about to add or to drop the entry, this has to wait. -/
def insertUnique (index : ρ → Option υ) (t : TxTable ι ρ key) (i : ι) (row : ρ) :
    Option (Except Unit (TxTable ι ρ key)) :=
  if t.committed.get? (key row) = none ∧ t.written.get? (key row) = none then
    match index row with
    | none => some (.ok (t.write i row))
    | some entry =>
      if t.contested index i entry then none
      else if (t.seen i).rows.any fun r => decide (index r = some entry) then some (.error ())
      else some (.ok (t.write i row))
  else none

/-- What a transaction has written is committed. -/
def commit : TxTable ι ρ key where
  committed := t.seen i
  written := t.written.filter fun w => decide (w.owner ≠ i)

/-- What a transaction has written is dropped. -/
def rollback : TxTable ι ρ key :=
  { t with written := t.written.filter fun w => decide (w.owner ≠ i) }

/-! ## The row of a key -/

variable {row : ρ}

section Rows

variable {t t' : TxTable ι ρ key} {i j : ι} {k : κ} {w : Written ι ρ}

omit [DecidableEq ι] in
lemma key_of_written (h : t.written.get? k = some w) : key w.row = k :=
  (Table.get?_eq_some_iff.mp h).2

/-- What a transaction has written, if it has written the row of the key, or what is committed. -/
lemma get?_seen (t : TxTable ι ρ key) (i : ι) (k : κ) :
    (t.seen i).get? k =
      (((t.written.get? k).filter fun w => decide (w.owner = i)).map (·.row)).or
        (t.committed.get? k) := by
  have hnodup : (((t.own i).rows.map (·.row)).map key).Nodup := by
    rw [List.map_map]
    exact (t.own i).nodup
  rw [seen, Table.get?_foldl_put hnodup, List.find?_map, ← Table.get?_filter]
  rfl

lemma get?_seen_of_written (h : t.written.get? k = some w) (howner : w.owner = i) :
    (t.seen i).get? k = some w.row := by
  simp [get?_seen, h, howner]

lemma get?_seen_of_not (h : ∀ w, t.written.get? k = some w → w.owner ≠ i) :
    (t.seen i).get? k = t.committed.get? k := by
  rw [get?_seen]
  cases hw : t.written.get? k with
  | none => rfl
  | some w => simp [Option.filter, h w hw]

/-- Where a row that is seen comes from. -/
lemma seen_cases (h : (t.seen i).get? k = some row) :
    (∃ w, t.written.get? k = some w ∧ w.owner = i ∧ w.row = row) ∨
      (∀ w, t.written.get? k = some w → w.owner ≠ i) ∧ t.committed.get? k = some row := by
  cases hw : t.written.get? k with
  | none =>
    rw [get?_seen_of_not (by simp [hw])] at h
    exact .inr ⟨by simp, h⟩
  | some w =>
    by_cases howner : w.owner = i
    · rw [get?_seen_of_written hw howner] at h
      exact .inl ⟨w, rfl, howner, Option.some.inj h⟩
    · rw [get?_seen_of_not (by simpa [hw] using howner)] at h
      exact .inr ⟨by simpa using howner, h⟩

section

variable (t : TxTable ι ρ key) (i : ι)

omit [DecidableEq ι] in
lemma get?_written_write (row : ρ) (k : κ) :
    (t.write i row).written.get? k = if key row = k then some ⟨i, row⟩ else t.written.get? k :=
  Table.get?_put _ _ _

omit [DecidableEq ι] in
lemma written_write {row : ρ} {k : κ} (h : key row = k) :
    (t.write i row).written.get? k = some ⟨i, row⟩ :=
  (get?_written_write t i row k).trans (if_pos h)

omit [DecidableEq ι] in
lemma written_write_of_ne {row : ρ} {k : κ} (h : key row ≠ k) :
    (t.write i row).written.get? k = t.written.get? k :=
  (get?_written_write t i row k).trans (if_neg h)

lemma get?_seen_write_of_ne (j : ι) {row : ρ} {k : κ} (h : key row ≠ k) :
    ((t.write i row).seen j).get? k = (t.seen j).get? k := by
  rw [get?_seen, get?_seen, written_write_of_ne t i h]
  rfl

lemma get?_commit (k : κ) : (t.commit i).committed.get? k = (t.seen i).get? k := rfl

end

/-- What is left written after a transaction. -/
lemma written_rollback_iff :
    (t.rollback i).written.get? k = some w ↔ t.written.get? k = some w ∧ w.owner ≠ i := by
  change (t.written.filter _).get? k = some w ↔ _
  rw [Table.get?_filter, Option.filter_eq_some_iff, decide_eq_true_iff]

lemma written_commit_iff :
    (t.commit i).written.get? k = some w ↔ t.written.get? k = some w ∧ w.owner ≠ i :=
  written_rollback_iff

lemma isFree_iff : t.isFree i k = true ↔ ∀ w, t.written.get? k = some w → w.owner = i := by
  cases hw : t.written.get? k with
  | none => simp [isFree, hw]
  | some w => simp [isFree, hw]

variable {p : ρ → Bool} {f : ρ → ρ}

/-- What an update does. -/
lemma updateRow_cases {n : ℕ} (h : t.updateRow i k p f = some (n, t')) :
    (n = 0 ∧ t' = t) ∨ n = 1 ∧ ∃ row, t.isFree i k = true ∧ (t.seen i).get? k = some row ∧
      p row = true ∧ t' = t.write i (f row) := by
  unfold updateRow at h
  split_ifs at h with hfree
  split at h
  case h_1 row hrow =>
    split_ifs at h with hp
    · cases h
      exact .inr ⟨rfl, row, hfree, hrow, hp, rfl⟩
    · cases h
      exact .inl ⟨rfl, rfl⟩
  case h_2 =>
    cases h
    exact .inl ⟨rfl, rfl⟩

/-- A row that satisfies the condition is changed. -/
lemma updateRow_zero (h : t.updateRow i k p f = some (0, t')) (hrow : (t.seen i).get? k = some row) :
    p row = false := by
  unfold updateRow at h
  split_ifs at h
  simp only [hrow] at h
  split_ifs at h with hp
  · cases h
  · simpa using hp

lemma updateById_cases {result : Option ρ} (hkey : ∀ row, key (f row) = key row)
    (h : t.updateById i k f = some (result, t')) :
    (result = none ∧ t' = t) ∨ ∃ row, result = some (f row) ∧ t.isFree i k = true ∧
      (t.seen i).get? k = some row ∧ t' = t.write i (f row) := by
  obtain ⟨⟨n, t'⟩, hupdate, ⟨⟩⟩ := Option.map_eq_some_iff.mp h
  rcases updateRow_cases hupdate with ⟨rfl, rfl⟩ | ⟨rfl, row, hfree, hrow, -, rfl⟩
  · exact .inl ⟨rfl, rfl⟩
  · have hwritten := written_write t i ((hkey row).trans (Table.key_of_get? hrow))
    exact .inr ⟨row, get?_seen_of_written hwritten rfl, hfree, hrow, rfl⟩

omit [DecidableEq ι] in
/-- What an update does that is a transaction of its own. -/
lemma updateNow_cases {hkey : ∀ row, key (f row) = key row} (h : t.updateNow k p f hkey = some t') :
    t.written.get? k = none ∧ t'.written = t.written ∧
      ∀ k', t'.committed.get? k' =
        (t.committed.get? k').map fun r => if k' = k ∧ p r = true then f r else r := by
  unfold updateNow at h
  split_ifs at h with hfree
  cases h
  refine ⟨Option.isNone_iff_eq_none.mp (by simpa using hfree), rfl, fun k' => ?_⟩
  rw [Table.get?_updateMany]
  cases hrow : t.committed.get? k' with
  | none => rfl
  | some r =>
    obtain rfl := Table.key_of_get? hrow
    simp

omit [DecidableEq ι] in
/-- What an insertion does that is a transaction of its own. -/
lemma insertNow_cases (h : t.insertNow row = some t') :
    t.committed.get? (key row) = none ∧ t.written.get? (key row) = none ∧ t'.written = t.written ∧
      ∀ k, t'.committed.get? k = if key row = k then some row else t.committed.get? k := by
  unfold insertNow at h
  split_ifs at h with hfresh hfree
  cases h
  exact ⟨hfresh, Option.isNone_iff_eq_none.mp (by simpa using hfree), rfl,
    fun k => Table.get?_insert _ _ hfresh k⟩

omit [DecidableEq ι] in
/-- A row that is written after a transaction has written one. -/
lemma written_write_cases (h : (t.write i row).written.get? k = some w) :
    key row = k ∧ w = ⟨i, row⟩ ∨ key row ≠ k ∧ t.written.get? k = some w := by
  rw [get?_written_write] at h
  split_ifs at h with hk
  · exact .inl ⟨hk, (Option.some.inj h).symm⟩
  · exact .inr ⟨hk, h⟩

/-! ## Rows that are locked -/

omit [DecidableEq ι] in
/-- What a transaction has written is as before, and what is committed under it. -/
structure Keeps (i : ι) (t t' : TxTable ι ρ key) : Prop where
  written : ∀ {k w}, t.written.get? k = some w → w.owner = i →
    t'.written.get? k = some w ∧ t'.committed.get? k = t.committed.get? k
  back : ∀ {k w}, t'.written.get? k = some w → w.owner = i → t.written.get? k = some w

omit [DecidableEq ι] in
lemma Keeps.refl (i : ι) (t : TxTable ι ρ key) : t.Keeps i t := ⟨fun h _ => ⟨h, rfl⟩, fun h _ => h⟩

/-- What a transaction sees after a step of another one. -/
lemma Keeps.seen (h : t.Keeps i t') (hrow : (t'.seen i).get? k = some row)
    (hcommitted : t'.committed.get? k = some row → t.committed.get? k = some row) :
    (t.seen i).get? k = some row := by
  rcases seen_cases hrow with ⟨w, hw, howner, rfl⟩ | ⟨hnot, hrow⟩
  · exact get?_seen_of_written (h.back hw howner) howner
  · rw [get?_seen_of_not, hcommitted hrow]
    exact fun w hw howner => hnot w (h.written hw howner).1 howner

lemma keeps_write (hij : i ≠ j) (hfree : t.isFree j (key row) = true) :
    t.Keeps i (t.write j row) where
  written {k w} hw howner := by
    have hne : key row ≠ k := by
      rintro rfl
      exact hij (howner.symm.trans (isFree_iff.mp hfree w hw))
    exact ⟨by rw [get?_written_write, if_neg hne, hw], rfl⟩
  back {k w} hw howner := by
    rcases written_write_cases hw with ⟨-, rfl⟩ | ⟨-, hw⟩
    · exact absurd howner hij.symm
    · exact hw

lemma keeps_updateRow {n : ℕ} (hij : i ≠ j) (hkey : ∀ row, key (f row) = key row)
    (h : t.updateRow j k p f = some (n, t')) : t.Keeps i t' := by
  rcases updateRow_cases h with ⟨-, rfl⟩ | ⟨-, row, hfree, hrow, -, rfl⟩
  · exact .refl i _
  · refine keeps_write hij ?_
    rwa [hkey, Table.key_of_get? hrow]

omit [DecidableEq ι] in
lemma keeps_updateNow {hkey : ∀ row, key (f row) = key row} (i : ι)
    (h : t.updateNow k p f hkey = some t') : t.Keeps i t' := by
  obtain ⟨hfree, hwritten, hcommitted⟩ := updateNow_cases h
  refine ⟨fun {k' w} hw _ => ⟨hwritten ▸ hw, ?_⟩, fun hw _ => hwritten ▸ hw⟩
  have hne : k' ≠ k := by
    rintro rfl
    simp [hfree] at hw
  rw [hcommitted]
  simp [hne]

omit [DecidableEq ι] in
lemma keeps_insertNow (i : ι) (h : t.insertNow row = some t') : t.Keeps i t' := by
  obtain ⟨-, hfree, hwritten, hcommitted⟩ := insertNow_cases h
  refine ⟨fun {k w} hw _ => ⟨hwritten ▸ hw, ?_⟩, fun hw _ => hwritten ▸ hw⟩
  have hne : key row ≠ k := by
    rintro rfl
    simp [hfree] at hw
  rw [hcommitted, if_neg hne]

lemma keeps_rollback (hij : i ≠ j) : t.Keeps i (t.rollback j) where
  written hw howner := ⟨written_rollback_iff.mpr ⟨hw, howner ▸ hij⟩, rfl⟩
  back hw _ := (written_rollback_iff.mp hw).1

lemma keeps_commit (hij : i ≠ j) : t.Keeps i (t.commit j) where
  written {k w} hw howner := by
    refine ⟨written_commit_iff.mpr ⟨hw, howner ▸ hij⟩, ?_⟩
    rw [get?_commit, get?_seen_of_not]
    intro w' hw'
    obtain rfl : w = w' := Option.some.inj (hw.symm.trans hw')
    exact howner ▸ hij
  back hw _ := (written_commit_iff.mp hw).1

/-- After a transaction nothing is left that it has written. -/
lemma owner_ne_of_rollback (hw : (t.rollback i).written.get? k = some w) : w.owner ≠ i :=
  (written_rollback_iff.mp hw).2

lemma owner_ne_of_commit (hw : (t.commit i).written.get? k = some w) : w.owner ≠ i :=
  (written_commit_iff.mp hw).2

/-! ## What is so of every row -/

omit [DecidableEq ι] in
/-- What is so of every row, committed or written. -/
structure All (P : ρ → Prop) (t : TxTable ι ρ key) : Prop where
  committed : ∀ {k row}, t.committed.get? k = some row → P row
  written : ∀ {k w}, t.written.get? k = some w → P w.row

section All

variable {P : ρ → Prop} (h : t.All P)
include h

lemma All.seen (hrow : (t.seen i).get? k = some row) : P row := by
  rcases seen_cases hrow with ⟨w, hw, -, rfl⟩ | ⟨-, hrow⟩
  · exact h.written hw
  · exact h.committed hrow

omit [DecidableEq ι] in
lemma All.write (hrow : P row) : (t.write i row).All P := by
  refine ⟨h.committed, fun hw => ?_⟩
  rcases written_write_cases hw with ⟨-, rfl⟩ | ⟨-, hw⟩
  · exact hrow
  · exact h.written hw

lemma All.commit (i : ι) : (t.commit i).All P :=
  ⟨h.seen, fun hw => h.written (written_commit_iff.mp hw).1⟩

lemma All.rollback (i : ι) : (t.rollback i).All P :=
  ⟨h.committed, fun hw => h.written (written_rollback_iff.mp hw).1⟩

omit [DecidableEq ι] in
lemma All.insertNow (hrow : P row) (hinsert : t.insertNow row = some t') : t'.All P := by
  obtain ⟨-, -, hwritten, hcommitted⟩ := insertNow_cases hinsert
  refine ⟨fun {k row'} hrow' => ?_, hwritten ▸ h.written⟩
  rw [hcommitted] at hrow'
  split_ifs at hrow'
  · cases hrow'
    exact hrow
  · exact h.committed hrow'

end All

end Rows

/-! ## A unique index -/

section Index

variable {index : ρ → Option υ} {t t' : TxTable ι ρ key} {i : ι} {k : κ}

omit [DecidableEq υ] in
/-- No two rows have the same entry, and this stays so whatever is committed first: a transaction
that is about to add an entry has written the row that has it. -/
structure Indexed (index : ρ → Option υ) (t : TxTable ι ρ key) : Prop where
  committed : ∀ {k k' row row' entry}, t.committed.get? k = some row →
    t.committed.get? k' = some row' → index row = some entry → index row' = some entry → k = k'
  written : ∀ {k k' w w' entry}, t.written.get? k = some w → t.written.get? k' = some w' →
    index w.row = some entry → index w'.row = some entry → k = k'
  mixed : ∀ {k k' w row' entry}, t.written.get? k = some w → t.committed.get? k' = some row' →
    index w.row = some entry → index row' = some entry →
    k = k' ∨ ∃ w', t.written.get? k' = some w' ∧ w'.owner = w.owner

/-- What an insertion does, if it succeeds. -/
lemma insertUnique_ok (h : t.insertUnique index i row = some (.ok t')) :
    t.committed.get? (key row) = none ∧ t.written.get? (key row) = none ∧ t' = t.write i row ∧
      ∀ entry, index row = some entry → t.contested index i entry = false ∧
        ∀ k r, (t.seen i).get? k = some r → index r ≠ some entry := by
  unfold insertUnique at h
  split_ifs at h with hfresh
  refine ⟨hfresh.1, hfresh.2, ?_⟩
  split at h
  case h_1 hnone =>
    cases h
    exact ⟨rfl, by simp [hnone]⟩
  case h_2 entry hentry =>
    split_ifs at h with hcontested htaken
    · cases Option.some.inj h
    · cases h
      refine ⟨rfl, ?_⟩
      rintro _ hindex
      obtain rfl : entry = _ := Option.some.inj (hentry.symm.trans hindex)
      refine ⟨by simpa using hcontested, fun k r hr heq => htaken ?_⟩
      exact List.any_eq_true.mpr ⟨r, (Table.get?_eq_some_iff.mp hr).1, by simpa using heq⟩

/-- An entry that is not contested: no other transaction has written a row with it, or over one. -/
lemma of_not_contested {entry : υ} (h : t.contested index i entry = false) {w : Written ι ρ}
    (hw : t.written.get? k = some w) (howner : w.owner ≠ i) :
    index w.row ≠ some entry ∧ ∀ r, t.committed.get? k = some r → index r ≠ some entry := by
  obtain ⟨hmem, rfl⟩ := Table.get?_eq_some_iff.mp hw
  have hnot := List.any_eq_false.mp h w hmem
  simp only [decide_eq_true howner, Bool.true_and, Bool.or_eq_true, decide_eq_true_eq,
    not_or] at hnot
  refine ⟨hnot.1, fun r hr heq => hnot.2 ?_⟩
  simp [hr, heq]

omit [DecidableEq ι] [DecidableEq υ] in
/-- A row that a transaction writes: only rows under its key have its entry, or rows that the
transaction has written over. -/
lemma Indexed.write (h : t.Indexed index)
    (hown : ∀ w, t.written.get? (key row) = some w → w.owner = i)
    (hwritten : ∀ {k w entry}, index row = some entry → t.written.get? k = some w →
      index w.row = some entry → key row = k)
    (hcommitted : ∀ {k row' entry}, index row = some entry → t.committed.get? k = some row' →
      index row' = some entry → key row = k ∨ ∃ w, t.written.get? k = some w ∧ w.owner = i) :
    (t.write i row).Indexed index := by
  refine ⟨h.committed, fun {k k' w w' entry} hw hw' hindex hindex' => ?_,
    fun {k k' w row' entry} hw hrow' hindex hindex' => ?_⟩
  · rcases written_write_cases hw with ⟨rfl, rfl⟩ | ⟨-, hw⟩ <;>
      rcases written_write_cases hw' with ⟨rfl, rfl⟩ | ⟨-, hw'⟩
    · rfl
    · exact hwritten hindex hw' hindex'
    · exact (hwritten hindex' hw hindex).symm
    · exact h.written hw hw' hindex hindex'
  · have hold : k = k' ∨ ∃ w', t.written.get? k' = some w' ∧ w'.owner = w.owner := by
      rcases written_write_cases hw with ⟨rfl, rfl⟩ | ⟨-, hw⟩
      · exact hcommitted hindex hrow' hindex'
      · exact h.mixed hw hrow' hindex hindex'
    refine hold.imp_right ?_
    rintro ⟨w', hw', howner⟩
    rw [get?_written_write]
    split_ifs with hk
    · subst hk
      exact ⟨_, rfl, (hown w' hw').symm.trans howner⟩
    · exact ⟨w', hw', howner⟩

lemma Indexed.insertUnique (h : t.Indexed index)
    (hinsert : t.insertUnique index i row = some (.ok t')) : t'.Indexed index := by
  obtain ⟨-, hnew, rfl, hentry⟩ := insertUnique_ok hinsert
  refine h.write (by simp [hnew]) (fun {k w entry} hindex hw heq => ?_)
    fun {k row' entry} hindex hrow' heq => .inr ?_
  · -- A written row with the entry of the new one would be the transaction's own, and seen by it.
    obtain ⟨hfree, hunseen⟩ := hentry entry hindex
    by_cases howner : w.owner = i
    · exact absurd heq (hunseen k w.row (get?_seen_of_written hw howner))
    · exact absurd heq (of_not_contested hfree hw howner).1
  · obtain ⟨hfree, hunseen⟩ := hentry entry hindex
    cases hw : t.written.get? k with
    | none =>
      refine absurd heq (hunseen k row' ?_)
      rw [get?_seen_of_not (by simp [hw]), hrow']
    | some w =>
      refine ⟨w, rfl, ?_⟩
      by_contra howner
      exact (of_not_contested hfree hw howner).2 row' hrow' heq

omit [DecidableEq υ] in
/-- A transaction changes a row that it sees, and keeps its entry or drops it. -/
lemma Indexed.write_seen (h : t.Indexed index) {old : ρ} (hfree : t.isFree i k = true)
    (hold : (t.seen i).get? k = some old) (hkey : key row = k)
    (hindex : ∀ entry, index row = some entry → index old = some entry) :
    (t.write i row).Indexed index := by
  subst hkey
  have hfree := isFree_iff.mp hfree
  refine h.write hfree (fun {k w entry} hnew hw heq => ?_) fun {k row' entry} hnew hrow' heq => ?_ <;>
    rcases seen_cases hold with ⟨w₀, hw₀, rfl, rfl⟩ | ⟨hnot, hcommitted⟩
  · exact h.written hw₀ hw (hindex _ hnew) heq
  · rcases h.mixed hw hcommitted heq (hindex _ hnew) with rfl | ⟨w', hw', -⟩
    · rfl
    · exact absurd (hfree w' hw') (hnot w' hw')
  · exact h.mixed hw₀ hrow' (hindex _ hnew) heq
  · exact .inl (h.committed hcommitted hrow' (hindex _ hnew) heq)

omit [DecidableEq υ] in
/-- An update that keeps the entry or drops it. -/
lemma Indexed.updateRow (h : t.Indexed index) {p : ρ → Bool} {f : ρ → ρ} {n : ℕ}
    (hkey : ∀ row, key (f row) = key row)
    (hindex : ∀ row entry, index (f row) = some entry → index row = some entry)
    (hupdate : t.updateRow i k p f = some (n, t')) : t'.Indexed index := by
  rcases updateRow_cases hupdate with ⟨-, rfl⟩ | ⟨-, row, hfree, hrow, -, rfl⟩
  · exact h
  · exact h.write_seen hfree hrow ((hkey row).trans (Table.key_of_get? hrow)) (hindex row)

omit [DecidableEq ι] [DecidableEq υ] in
lemma Indexed.updateNow (h : t.Indexed index) {p : ρ → Bool} {f : ρ → ρ}
    {hkey : ∀ row, key (f row) = key row}
    (hindex : ∀ row entry, index (f row) = some entry → index row = some entry)
    (hupdate : t.updateNow k p f hkey = some t') : t'.Indexed index := by
  obtain ⟨-, hwritten, hcommitted⟩ := updateNow_cases hupdate
  have hold : ∀ {k' row' entry}, t'.committed.get? k' = some row' → index row' = some entry →
      ∃ row, t.committed.get? k' = some row ∧ index row = some entry := by
    intro k' row' entry hrow' hentry
    rw [hcommitted, Option.map_eq_some_iff] at hrow'
    obtain ⟨row, hrow, rfl⟩ := hrow'
    refine ⟨row, hrow, ?_⟩
    split_ifs at hentry
    · exact hindex row entry hentry
    · exact hentry
  refine ⟨fun hrow hrow' hentry hentry' => ?_, hwritten ▸ h.written,
    fun hw hrow' hentry hentry' => ?_⟩
  · obtain ⟨_, hrow, hentry⟩ := hold hrow hentry
    obtain ⟨_, hrow', hentry'⟩ := hold hrow' hentry'
    exact h.committed hrow hrow' hentry hentry'
  · obtain ⟨_, hrow', hentry'⟩ := hold hrow' hentry'
    rw [hwritten] at hw ⊢
    exact h.mixed hw hrow' hentry hentry'

omit [DecidableEq ι] [DecidableEq υ] in
/-- A row without an entry is inserted. -/
lemma Indexed.insertNow (h : t.Indexed index) (hnone : index row = none)
    (hinsert : t.insertNow row = some t') : t'.Indexed index := by
  obtain ⟨-, -, hwritten, hcommitted⟩ := insertNow_cases hinsert
  have hold : ∀ {k row' entry}, t'.committed.get? k = some row' → index row' = some entry →
      t.committed.get? k = some row' := by
    intro k row' entry hrow' hentry
    rw [hcommitted] at hrow'
    split_ifs at hrow'
    · cases hrow'
      simp [hnone] at hentry
    · exact hrow'
  refine ⟨fun hrow hrow' hentry hentry' => ?_, hwritten ▸ h.written,
    fun hw hrow' hentry hentry' => ?_⟩
  · exact h.committed (hold hrow hentry) (hold hrow' hentry') hentry hentry'
  · rw [hwritten] at hw ⊢
    exact h.mixed hw (hold hrow' hentry') hentry hentry'

omit [DecidableEq υ] in
lemma Indexed.rollback (h : t.Indexed index) (i : ι) : (t.rollback i).Indexed index where
  committed := h.committed
  written {k k' w w' entry} hw hw' hindex hindex' := by
    exact h.written (written_rollback_iff.mp hw).1 (written_rollback_iff.mp hw').1 hindex hindex'
  mixed {k k' w row' entry} hw hrow' hindex hindex' := by
    simp only [written_rollback_iff] at hw ⊢
    refine (h.mixed hw.1 hrow' hindex hindex').imp_right ?_
    rintro ⟨w', hw', howner⟩
    exact ⟨w', ⟨hw', howner ▸ hw.2⟩, howner⟩

omit [DecidableEq υ] in
lemma Indexed.commit (h : t.Indexed index) (i : ι) : (t.commit i).Indexed index where
  committed {k k' row row' entry} hrow hrow' hindex hindex' := by
    rcases seen_cases hrow with ⟨w, hw, howner, rfl⟩ | ⟨hnot, hrow⟩
    · rcases seen_cases hrow' with ⟨w', hw', -, rfl⟩ | ⟨hnot', hrow'⟩
      · exact h.written hw hw' hindex hindex'
      · rcases h.mixed hw hrow' hindex hindex' with hk | ⟨w', hw', howner'⟩
        · exact hk
        · exact absurd (howner'.trans howner) (hnot' w' hw')
    · rcases seen_cases hrow' with ⟨w', hw', howner', rfl⟩ | ⟨-, hrow'⟩
      · rcases h.mixed hw' hrow hindex' hindex with hk | ⟨w, hw, howner⟩
        · exact hk.symm
        · exact absurd (howner.trans howner') (hnot w hw)
      · exact h.committed hrow hrow' hindex hindex'
  written {k k' w w' entry} hw hw' hindex hindex' := by
    exact h.written (written_commit_iff.mp hw).1 (written_commit_iff.mp hw').1 hindex hindex'
  mixed {k k' w row' entry} hw hrow' hindex hindex' := by
    simp only [written_commit_iff] at hw ⊢
    rcases seen_cases hrow' with ⟨w', hw', -, rfl⟩ | ⟨-, hrow'⟩
    · exact .inl (h.written hw.1 hw' hindex hindex')
    · refine (h.mixed hw.1 hrow' hindex hindex').imp_right ?_
      rintro ⟨w', hw', howner⟩
      exact ⟨w', ⟨hw', howner ▸ hw.2⟩, howner⟩

end Index

end TxTable

end Flowmind.Store
