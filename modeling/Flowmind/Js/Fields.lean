import Mathlib.Data.List.Induction
import Mathlib.Data.List.Nodup
import Mathlib.Tactic.Common

/-!
# The properties of an object

An object is the list of its properties, in their order.

* `setField`, `spread` — assignment and object spread.
* `lookup_setField`, `lookup_spread` — what is read afterwards; of the properties that are spread the
  last one of a name is read.
-/

namespace Flowmind

variable {α : Type*} {name : String} {fields : List (String × α)}

/-- `target[key] = value`. -/
def setField (key : String) (value : α) : List (String × α) → List (String × α)
  | [] => [(key, value)]
  | (k, v) :: fields => if k = key then (k, value) :: fields else (k, v) :: setField key value fields

/-- `{ ...fields, ...others }`. -/
def spread (fields others : List (String × α)) : List (String × α) :=
  others.foldl (fun fields entry => setField entry.1 entry.2 fields) fields

lemma lookup_cons_ite (k : String) (x : α) :
    ((k, x) :: fields).lookup name = if name = k then some x else fields.lookup name := by
  by_cases h : name = k
  · simp [h]
  · have hbeq : (name == k) = false := by simpa using h
    simp [List.lookup_cons, hbeq, h]

section SetField

variable {key : String} {value : α}

lemma lookup_setField :
    (setField key value fields).lookup name = if name = key then some value else fields.lookup name := by
  induction fields with
  | nil => simp [setField, lookup_cons_ite]
  | cons entry fields ih =>
    obtain ⟨k, x⟩ := entry
    by_cases hkey : k = key
    · by_cases h : name = key <;> simp [setField, lookup_cons_ite, hkey, h]
    · by_cases h : name = k
      · simp [setField, hkey, h]
      · simp [setField, lookup_cons_ite, hkey, h, ih]

@[simp] lemma lookup_setField_self : (setField key value fields).lookup key = some value := by
  simp [lookup_setField]

lemma setField_setField (value' : α) :
    setField key value' (setField key value fields) = setField key value' fields := by
  induction fields with
  | nil => simp [setField]
  | cons entry fields ih =>
    by_cases h : entry.1 = key <;> simp [setField, h, ih]

/-- Writing what is there changes nothing. -/
lemma setField_lookup (h : fields.lookup key = some value) : setField key value fields = fields := by
  induction fields with
  | nil => simp at h
  | cons entry fields ih =>
    obtain ⟨k, x⟩ := entry
    by_cases hkey : k = key
    · subst hkey
      simp only [List.lookup_cons, beq_self_eq_true, Option.some.injEq] at h
      simp [setField, h]
    · have hne : (key == k) = false := by simpa using Ne.symm hkey
      rw [List.lookup_cons, hne] at h
      simp [setField, hkey, ih h]

end SetField

lemma spread_concat (fields others : List (String × α)) (entry : String × α) :
    spread fields (others ++ [entry]) = setField entry.1 entry.2 (spread fields others) := by
  simp [spread]

lemma lookup_spread (fields others : List (String × α)) :
    (spread fields others).lookup name = (others.reverse.lookup name).or (fields.lookup name) := by
  induction others using List.reverseRecOn with
  | nil => rfl
  | append_singleton others entry ih =>
    rw [spread_concat, lookup_setField, ih, List.reverse_append, List.reverse_singleton,
      List.singleton_append, lookup_cons_ite]
    split_ifs <;> rfl

/-- A property that the second object does not have. -/
lemma lookup_spread_of_none {others : List (String × α)} (hothers : others.lookup name = none)
    (fields : List (String × α)) : (spread fields others).lookup name = fields.lookup name := by
  have hreverse : others.reverse.lookup name = none := by
    simpa only [List.lookup_eq_none_iff, List.mem_reverse] using hothers
  rw [lookup_spread, hreverse, Option.none_or]

end Flowmind
