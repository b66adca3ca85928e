import Mathlib.Data.List.Nodup
import Mathlib.Data.List.Dedup
import Mathlib.Tactic.Common

/-!
# Tables with a primary key

A table is a list of rows in which no two rows have the same key; the invariant is a field, so a
table with two rows for one key cannot be built.  The operations are the ones a data base offers in
a single atomic statement:

* `get?` — the row of a key;
* `updateMany` — change every row that satisfies a condition, and `count` — how many there are;
* `insert` — add a row under a fresh key, `insertNew` — unless the key is taken, `put` — in place of
  the one that has the key, and `remove` and `filter` — delete some.

Everything about a table is said through `get?`: `get?_updateMany`, `get?_insert` and `get?_remove`
give it after an update, and `count_eq_one_iff` reads the number of changed rows back.
-/

namespace Flowmind.Store

variable {ρ κ : Type*} {key : ρ → κ}

/-- Rows with pairwise different keys. -/
structure Table (ρ : Type*) {κ : Type*} (key : ρ → κ) where
  rows : List ρ
  nodup : (rows.map key).Nodup

namespace Table

/-- The table without rows. -/
def empty : Table ρ key := ⟨[], List.nodup_nil⟩

/-- The number of rows that satisfy a condition. -/
def count (t : Table ρ key) (p : ρ → Bool) : ℕ := t.rows.countP p

/-- Change every row that satisfies `p`, leaving its key alone. -/
def updateMany (t : Table ρ key) (p : ρ → Bool) (f : ρ → ρ)
    (hkey : ∀ r, key (f r) = key r := by intro _; rfl) : Table ρ key where
  rows := t.rows.map fun r => if p r then f r else r
  nodup := by
    have hkeys : (t.rows.map fun r => if p r then f r else r).map key = t.rows.map key := by
      rw [List.map_map]
      refine List.map_congr_left fun r _ => ?_
      simp only [Function.comp_apply]
      split
      · exact hkey r
      · rfl
    rw [hkeys]
    exact t.nodup

/-- Keep the rows that satisfy `p`. -/
def filter (t : Table ρ key) (p : ρ → Bool) : Table ρ key where
  rows := t.rows.filter p
  nodup := t.nodup.sublist (List.filter_sublist.map key)

variable [DecidableEq κ]

/-- The row of a key. -/
def get? (t : Table ρ key) (k : κ) : Option ρ := t.rows.find? fun r => decide (key r = k)

/-- Add a row whose key is not taken. -/
def insert (t : Table ρ key) (r : ρ) (hfresh : t.get? (key r) = none) : Table ρ key where
  rows := t.rows ++ [r]
  nodup := by
    rw [List.map_append, List.map_singleton, List.nodup_append]
    refine ⟨t.nodup, List.nodup_singleton _, ?_⟩
    rintro k hk k' hk' rfl
    rw [List.mem_singleton] at hk'
    obtain ⟨s, hs, hsk⟩ := List.mem_map.mp hk
    have hnone := List.find?_eq_none.mp hfresh s hs
    exact hnone (by simp [hsk, hk'])

/-- Add a row unless its key is taken. -/
def insertNew (t : Table ρ key) (r : ρ) : Table ρ key :=
  if hfresh : t.get? (key r) = none then t.insert r hfresh else t

/-- Delete the row of a key. -/
def remove (t : Table ρ key) (k : κ) : Table ρ key where
  rows := t.rows.filter fun r => decide (key r ≠ k)
  nodup := t.nodup.sublist (List.filter_sublist.map key)

/-! ## Reading -/

variable {t : Table ρ key} {k : κ}

lemma get?_eq_some_iff {r : ρ} : t.get? k = some r ↔ r ∈ t.rows ∧ key r = k := by
  constructor
  · intro h
    exact ⟨List.mem_of_find?_eq_some h, by simpa using List.find?_some h⟩
  · rintro ⟨hmem, rfl⟩
    cases hfind : t.get? (key r) with
    | none => exact absurd (List.find?_eq_none.mp hfind r hmem) (by simp)
    | some s =>
      have hs : s ∈ t.rows := List.mem_of_find?_eq_some hfind
      have hkey : key s = key r := by simpa using List.find?_some hfind
      rw [List.inj_on_of_nodup_map t.nodup hs hmem hkey]

lemma get?_eq_none_iff : t.get? k = none ↔ ∀ r ∈ t.rows, key r ≠ k := by
  simp [get?]

lemma key_of_get? {r : ρ} (h : t.get? k = some r) : key r = k :=
  (get?_eq_some_iff.mp h).2

@[simp] lemma get?_empty (k : κ) : (empty : Table ρ key).get? k = none := rfl

/-! ## Updating -/

section

variable (t : Table ρ key)

/-- A row after an update is the old row, changed if it satisfies the condition. -/
lemma get?_updateMany (p : ρ → Bool) (f : ρ → ρ) (hkey : ∀ r, key (f r) = key r) (k : κ) :
    (t.updateMany p f hkey).get? k = (t.get? k).map fun r => if p r then f r else r := by
  have hkept : ∀ r, key (if p r then f r else r) = key r := by
    intro r
    split
    · exact hkey r
    · rfl
  simp only [get?, updateMany, List.find?_map, Function.comp_def, hkept]

lemma get?_insert (r : ρ) (hfresh : t.get? (key r) = none) (k : κ) :
    (t.insert r hfresh).get? k = if key r = k then some r else t.get? k := by
  simp only [get?, insert]
  by_cases hk : key r = k
  · have hnone : t.rows.find? (fun s => decide (key s = k)) = none := by
      rw [← hk]
      exact hfresh
    simp [hnone]
  · simp [hk]

variable {t} in
lemma get?_insert_of_get? {r r' : ρ} (hfresh : t.get? (key r) = none) {k : κ}
    (h : t.get? k = some r') : (t.insert r hfresh).get? k = some r' := by
  rw [get?_insert, if_neg, h]
  rintro rfl
  simp [hfresh] at h

variable {t} in
/-- A row after an insertion is the new one, or was there. -/
lemma insert_cases {r r' : ρ} (hfresh : t.get? (key r) = none) {k : κ}
    (h : (t.insert r hfresh).get? k = some r') : r' = r ∧ key r = k ∨ t.get? k = some r' := by
  rw [get?_insert] at h
  split_ifs at h with hk
  · exact .inl ⟨(Option.some.inj h).symm, hk⟩
  · exact .inr h

lemma get?_insertNew (r : ρ) (k : κ) :
    (t.insertNew r).get? k = (t.get? k).or (if key r = k then some r else none) := by
  unfold insertNew
  split
  case isTrue hfresh =>
    rw [get?_insert]
    by_cases hk : key r = k
    · subst hk
      simp [hfresh]
    · simp [hk]
  case isFalse htaken =>
    obtain ⟨s, hs⟩ := Option.ne_none_iff_exists'.mp htaken
    by_cases hk : key r = k
    · subst hk
      simp [hs]
    · simp [hk]

lemma get?_remove (k k' : κ) : (t.remove k).get? k' = if k' = k then none else t.get? k' := by
  split
  case isTrue heq =>
    refine get?_eq_none_iff.mpr fun r hr hkey => ?_
    have hne := (List.mem_filter.mp hr).2
    exact of_decide_eq_true hne (hkey.trans heq)
  case isFalse hne =>
    ext r
    rw [get?_eq_some_iff, get?_eq_some_iff]
    simp only [remove, List.mem_filter, decide_eq_true_eq]
    constructor
    · rintro ⟨⟨hmem, -⟩, hkey⟩
      exact ⟨hmem, hkey⟩
    · rintro ⟨hmem, hkey⟩
      exact ⟨⟨hmem, hkey ▸ hne⟩, hkey⟩

/-- The row of a key, if it is kept. -/
lemma get?_filter (p : ρ → Bool) (k : κ) : (t.filter p).get? k = (t.get? k).filter p := by
  ext r
  rw [get?_eq_some_iff, Option.filter_eq_some_iff, get?_eq_some_iff]
  simp only [filter, List.mem_filter]
  tauto

end

/-- Write a row, in place of the one with its key if there is one. -/
def put (t : Table ρ key) (r : ρ) : Table ρ key :=
  (t.remove (key r)).insert r (by rw [get?_remove, if_pos rfl])

lemma get?_put (t : Table ρ key) (r : ρ) (k : κ) :
    (t.put r).get? k = if key r = k then some r else t.get? k := by
  rw [put, get?_insert, get?_remove]
  split_ifs with hk hne
  · rfl
  · exact absurd hne.symm hk
  · rfl

/-- Write rows with different keys. -/
lemma get?_foldl_put {rows : List ρ} (hnodup : (rows.map key).Nodup) (t : Table ρ key) (k : κ) :
    (rows.foldl put t).get? k =
      (rows.find? fun r => decide (key r = k)).or (t.get? k) := by
  induction rows generalizing t with
  | nil => rfl
  | cons r rows ih =>
    rw [List.map_cons, List.nodup_cons] at hnodup
    rw [List.foldl_cons, ih hnodup.2, get?_put]
    by_cases hk : key r = k
    · have hrest : rows.find? (fun s => decide (key s = k)) = none := by
        refine List.find?_eq_none.mpr fun s hs hsk => hnodup.1 ?_
        rw [hk, ← of_decide_eq_true hsk]
        exact List.mem_map_of_mem hs
      simp [hk, hrest]
    · simp [hk]

/-! ## Counting -/

variable {p : ρ → Bool}

/-- A condition on one key counts that row, if it is there and satisfies it. -/
lemma countP_eq_elim (hp : ∀ r, p r = true → key r = k) :
    ∀ rows : List ρ, (rows.map key).Nodup → rows.countP p =
      (rows.find? fun r => decide (key r = k)).elim 0 fun r => if p r then 1 else 0
  | [], _ => rfl
  | r :: rows, hnodup => by
    rw [List.map_cons, List.nodup_cons] at hnodup
    rw [List.countP_cons]
    by_cases hr : key r = k
    · -- No later row has the key, so none satisfies the condition.
      have hrest : rows.countP p = 0 := by
        refine List.countP_eq_zero.mpr fun s hs hps => hnodup.1 ?_
        rw [hr, ← hp s hps]
        exact List.mem_map_of_mem hs
      simp [hr, hrest]
    · have hpr : ¬ p r = true := fun hpr => hr (hp r hpr)
      rw [countP_eq_elim hp rows hnodup.2]
      simp [hr, hpr]

lemma count_eq_elim (t : Table ρ key) (hp : ∀ r, p r = true → key r = k) :
    t.count p = (t.get? k).elim 0 fun r => if p r then 1 else 0 :=
  countP_eq_elim hp t.rows t.nodup

/-- A condition on one key is met by at most one row, and a count of one says that it is met. -/
lemma count_eq_one_iff (hp : ∀ r, p r = true → key r = k) :
    t.count p = 1 ↔ ∃ r, t.get? k = some r ∧ p r = true := by
  rw [count_eq_elim t hp]
  cases t.get? k with
  | none => simp
  | some r => simp

lemma count_insert (t : Table ρ key) (r : ρ) (hfresh : t.get? (key r) = none) (p : ρ → Bool) :
    (t.insert r hfresh).count p = t.count p + if p r then 1 else 0 := by
  simp [count, insert]

omit [DecidableEq κ] in
/-- An update that leaves a condition alone leaves the number of rows with it alone. -/
lemma count_updateMany (t : Table ρ key) (q : ρ → Bool) (f : ρ → ρ)
    (hkey : ∀ r, key (f r) = key r) (hp : ∀ r, p (f r) = p r) :
    (t.updateMany q f hkey).count p = t.count p := by
  simp only [count, updateMany, List.countP_map]
  refine List.countP_congr fun r _ => ?_
  simp only [Function.comp_apply]
  split <;> simp [hp]

end Table

end Flowmind.Store
