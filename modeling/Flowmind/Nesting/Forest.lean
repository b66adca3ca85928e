import Mathlib.Logic.Relation
import Mathlib.Order.WellFounded
import Mathlib.Tactic.Common

/-!
# Forests that are given by parent links

A node may have a parent, and a label that is to name the root of its tree; a root has none.

* `Descends` — proper descendants.
* `Rooted` — the labels are right where a node and its parent meet.
* `Descends.root_eq`, `Rooted.descends` — then they are right everywhere: a descendant has the label
  of its ancestor, and the label of a node is the root it descends from.
* `descends_update_iff` — the descendants when a leaf is added.
-/

namespace Flowmind.Nesting

variable {ι : Type*} {parent root : ι → Option ι} {i j r : ι}

/-- `i` is a proper descendant of `j`. -/
def Descends (parent : ι → Option ι) (i j : ι) : Prop :=
  Relation.TransGen (fun i j => parent i = some j) i j

/-- A node and its parent are in the same tree, and only roots have no label. -/
structure Rooted (parent root : ι → Option ι) : Prop where
  of_parent : ∀ {i j}, parent i = some j → root i = some ((root j).getD j)
  of_none : ∀ {i}, parent i = none → root i = none

lemma Descends.single (h : parent i = some j) : Descends parent i j := Relation.TransGen.single h

lemma Descends.head (hlink : parent i = some j) (h : Descends parent j r) : Descends parent i r :=
  Relation.TransGen.head hlink h

/-- A descendant has a parent, which is the ancestor or descends from it. -/
lemma Descends.exists_parent (h : Descends parent i r) :
    ∃ j, parent i = some j ∧ (j = r ∨ Descends parent j r) := by
  obtain ⟨j, hlink, hrest⟩ := Relation.TransGen.head'_iff.mp h
  refine ⟨j, hlink, ?_⟩
  rcases Relation.reflTransGen_iff_eq_or_transGen.mp hrest with heq | hdescends
  · exact .inl heq.symm
  · exact .inr hdescends

/-- A descendant has the label of its ancestor. -/
lemma Descends.root_eq (hrooted : Rooted parent root) (h : Descends parent i j) :
    root i = some ((root j).getD j) := by
  induction h with
  | single hlink => exact hrooted.of_parent hlink
  | tail _ hlink ih => rw [ih, hrooted.of_parent hlink, Option.getD_some]

/-- A node that has a label descends from the root it names. -/
lemma Rooted.descends (hrooted : Rooted parent root)
    (hwf : WellFounded fun j i => parent i = some j) (h : root i = some r) :
    Descends parent i r ∧ root r = none := by
  induction i using hwf.induction with
  | _ i ih =>
    cases hparent : parent i with
    | none =>
      rw [hrooted.of_none hparent] at h
      cases h
    | some j =>
      rw [hrooted.of_parent hparent, Option.some.injEq] at h
      cases hj : root j with
      | none =>
        rw [hj] at h
        subst h
        exact ⟨.single hparent, hj⟩
      | some r' =>
        rw [hj] at h
        subst h
        exact (ih j hparent hj).imp_left (.head hparent)

/-- A leaf is added, with a parent or not: what was there descends from the same nodes as before. -/
lemma descends_update_iff [DecidableEq ι] {leaf : ι} {top : Option ι} (hnone : parent leaf = none)
    (hleaf : ∀ i, parent i ≠ some leaf) (htop : top ≠ some leaf) :
    Descends (Function.update parent leaf top) i r ↔
      if i = leaf then ∃ j, top = some j ∧ (j = r ∨ Descends parent j r) else Descends parent i r := by
  have hlink : ∀ {i j}, parent i = some j → Function.update parent leaf top i = some j := by
    intro i j h
    rwa [Function.update_of_ne]
    rintro rfl
    rw [hnone] at h
    cases h
  have hkeep : ∀ {i}, Descends parent i r → Descends (Function.update parent leaf top) i r :=
    fun h => Relation.TransGen.mono (fun _ _ => hlink) _ _ h
  constructor
  · intro h
    induction h using Relation.TransGen.head_induction_on with
    | @single i h =>
      by_cases hi : i = leaf
      · subst hi
        rw [Function.update_self] at h
        rw [if_pos rfl]
        exact ⟨r, h, .inl rfl⟩
      · rw [Function.update_of_ne hi] at h
        rw [if_neg hi]
        exact .single h
    | @head i j h _ ih =>
      by_cases hi : i = leaf
      · subst hi
        rw [Function.update_self] at h
        have hj : j ≠ i := fun heq => htop (heq ▸ h)
        rw [if_neg hj] at ih
        rw [if_pos rfl]
        exact ⟨j, h, .inr ih⟩
      · rw [Function.update_of_ne hi] at h
        have hj : j ≠ leaf := fun heq => hleaf i (heq ▸ h)
        rw [if_neg hj] at ih
        rw [if_neg hi]
        exact ih.head h
  · intro h
    split_ifs at h with hi
    · subst hi
      obtain ⟨j, htop, h⟩ := h
      have hfirst : Function.update parent i top i = some j := (Function.update_self ..).trans htop
      rcases h with rfl | h
      · exact .single hfirst
      · exact .head hfirst (hkeep h)
    · exact hkeep h

end Flowmind.Nesting
