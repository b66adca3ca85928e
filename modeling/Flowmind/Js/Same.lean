import Flowmind.Js.Value

/-!
# Values that are the same JSON

Two values are the same if whatever one reads in one of them, item by item and property by property,
one reads in the other; the order of the properties of a record does not matter.

* `Same` — the relation, by what is seen at every place.
* `same_iff` — two values are the same exactly when they look alike and their parts are the same.
* `same_obj_iff` — two records, by their properties.
* `Same.foldl_perm` — a fold whose steps commute does not depend on the order.
-/

namespace Flowmind.Json

/-- A place in a container: an item of an array or a property of a record. -/
inductive Place where
  | item (index : ℕ)
  | field (name : String)

/-- What is seen of a value without looking into it. -/
inductive Shape where
  | null
  | bool (b : Bool)
  | num (q : ℚ)
  | str (s : String)
  | arr (length : ℕ)
  | obj

def shape : Json → Shape
  | .null => .null
  | .bool b => .bool b
  | .num q => .num q
  | .str s => .str s
  | .arr items => .arr items.length
  | .obj _ => .obj

def part? : Json → Place → Option Json
  | .arr items, .item index => items[index]?
  | .obj fields, .field name => fields.lookup name
  | _, _ => none

def walk? : Json → List Place → Option Json
  | v, [] => some v
  | v, place :: places => (v.part? place).bind (walk? · places)

/-- The same JSON value. -/
def Same (a b : Json) : Prop :=
  ∀ places, (a.walk? places).map shape = (b.walk? places).map shape

variable {a b c : Json}

@[refl] lemma Same.refl (a : Json) : Same a a := fun _ => rfl

lemma Same.symm (h : Same a b) : Same b a := fun places => (h places).symm

lemma Same.trans (hab : Same a b) (hbc : Same b c) : Same a c := fun places =>
  (hab places).trans (hbc places)

lemma rel_same_refl : ∀ x : Option Json, Option.Rel Same x x
  | none => .none
  | some v => .some (.refl v)

lemma isSome_eq_of_rel {x y : Option Json} (h : Option.Rel Same x y) : x.isSome = y.isSome := by
  cases h <;> rfl

/-- Two values are the same if they look alike and their parts are the same. -/
theorem same_iff :
    Same a b ↔ a.shape = b.shape ∧ ∀ place, Option.Rel Same (a.part? place) (b.part? place) := by
  constructor
  · intro h
    refine ⟨by simpa [walk?] using h [], fun place => ?_⟩
    have hpart : ∀ places, ((a.part? place).bind (walk? · places)).map shape =
        ((b.part? place).bind (walk? · places)).map shape := fun places => h (place :: places)
    cases ha : a.part? place with
    | none =>
      cases hb : b.part? place with
      | none => exact .none
      | some w => simpa [ha, hb, walk?] using hpart []
    | some v =>
      cases hb : b.part? place with
      | none => simpa [ha, hb, walk?] using hpart []
      | some w => exact .some fun places => by simpa [ha, hb] using hpart places
  · rintro ⟨hshape, hparts⟩ places
    cases places with
    | nil => simp [walk?, hshape]
    | cons place places =>
      have hpart := hparts place
      simp only [walk?]
      generalize a.part? place = x at hpart ⊢
      generalize b.part? place = y at hpart ⊢
      cases hpart with
      | none => rfl
      | some h => exact h places

/-- Two records are the same if each property of one is a property of the other. -/
theorem same_obj_iff {f g : List (String × Json)} :
    Same (.obj f) (.obj g) ↔ ∀ name, Option.Rel Same (f.lookup name) (g.lookup name) := by
  rw [same_iff]
  constructor
  · intro h name
    exact h.2 (.field name)
  · intro h
    refine ⟨rfl, fun place => ?_⟩
    cases place with
    | item index => exact .none
    | field name => exact h name

/-- The properties of values that are the same. -/
lemma Same.get? (h : Same a b) (name : String) : Option.Rel Same (a.get? name) (b.get? name) := by
  have hfield := (same_iff.mp h).2 (.field name)
  have hget : ∀ v : Json, v.get? name = v.part? (.field name) := by
    intro v
    cases v <;> rfl
  rwa [hget, hget]

/-- A fold whose steps commute does not depend on the order of its list. -/
lemma Same.foldl_perm {α : Type*} {f : Json → α → Json}
    (hcongr : ∀ x a b, Same a b → Same (f a x) (f b x)) {l l' : List α} (hperm : l.Perm l')
    (hcomm : ∀ x ∈ l, ∀ y ∈ l, ∀ a, Same (f (f a x) y) (f (f a y) x)) :
    ∀ {a b : Json}, Same a b → Same (l.foldl f a) (l'.foldl f b) := by
  induction hperm with
  | nil => exact id
  | cons x _ ih =>
    intro a b h
    exact ih (fun y hy z hz => hcomm y (.tail _ hy) z (.tail _ hz)) (hcongr x a b h)
  | swap x y l =>
    intro a b h
    have hfold : ∀ {a b : Json}, Same a b → Same (l.foldl f a) (l.foldl f b) := by
      clear hcomm h
      induction l with
      | nil => exact id
      | cons z l ih => exact fun h => ih (hcongr z _ _ h)
    exact hfold ((hcomm y (by simp) x (by simp) a).trans
      (hcongr y _ _ (hcongr x _ _ h)))
  | trans hfirst _ ih ih' =>
    intro a b h
    exact (ih hcomm (.refl a)).trans
      (ih' (fun x hx y hy => hcomm x (hfirst.mem_iff.mpr hx) y (hfirst.mem_iff.mpr hy)) h)

end Flowmind.Json
