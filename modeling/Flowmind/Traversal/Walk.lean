import Mathlib.Data.List.Chain
import Mathlib.Data.List.Nodup
import Mathlib.Data.List.Perm.Subperm
import Mathlib.Logic.Relation
import Mathlib.Tactic.Common

/-!
# Walks along a successor function

A directed graph is given here by the list of successors of each node, `succ : α → List α`, which
is the form in which a traversal consults it.  Nothing in this file runs anything: it collects the
relations a traversal is later shown to compute.

* `Edge`, `Reach`, `ReachPlus` — one edge, any number of edges, at least one edge.
* `ReachOff` — reachability that never enters a node of a given set: what a traversal with a stop
  condition explores.
* `Acyclic` — no node reaches itself.
* `Walk` — a list of consecutive edges, with its start kept apart from the rest.

The two facts the later files lean on are `Acyclic.walk_nodup` (a walk of an acyclic graph never
repeats a node) and `Acyclic.no_infinite_walk` (so a finite acyclic graph has no infinite walk).
-/

namespace Flowmind.Traversal

variable {α : Type*}

/-- One edge of the graph that `succ` describes. -/
def Edge (succ : α → List α) (a b : α) : Prop := b ∈ succ a

/-- Reachable in any number of edges, including none. -/
abbrev Reach (succ : α → List α) : α → α → Prop := Relation.ReflTransGen (Edge succ)

/-- Reachable in at least one edge. -/
abbrev ReachPlus (succ : α → List α) : α → α → Prop := Relation.TransGen (Edge succ)

/-- No node reaches itself. -/
def Acyclic (succ : α → List α) : Prop := ∀ a, ¬ ReachPlus succ a a

/-- An edge whose target lies outside the stop set. -/
def EdgeOff (succ : α → List α) (stop : α → Prop) (a b : α) : Prop := Edge succ a b ∧ ¬ stop b

/-- Reachable without ever entering a node of `stop`; the start is excluded as well. -/
def ReachOff (succ : α → List α) (stop : α → Prop) (a b : α) : Prop :=
  ¬ stop a ∧ Relation.ReflTransGen (EdgeOff succ stop) a b

/-- `a :: p` is a sequence of consecutive edges. -/
def Walk (succ : α → List α) (a : α) (p : List α) : Prop := (a :: p).IsChain (Edge succ)

/-- `nodes` is closed under `succ`. -/
def ClosedUnder (succ : α → List α) (nodes : List α) : Prop := ∀ a ∈ nodes, succ a ⊆ nodes

variable {succ : α → List α} {a b : α}

lemma ClosedUnder.reach {nodes : List α} (h : ClosedUnder succ nodes) (ha : a ∈ nodes)
    (hab : Reach succ a b) : b ∈ nodes := by
  induction hab with
  | refl => exact ha
  | tail _ hbc ih => exact h _ ih hbc

/-! ## Reachability off a stop set -/

variable {stop : α → Prop}

lemma ReachOff.reach (h : ReachOff succ stop a b) : Reach succ a b :=
  Relation.ReflTransGen.mono (r := EdgeOff succ stop) (fun _ _ hab => hab.1) _ _ h.2

lemma ReachOff.not_stop (h : ReachOff succ stop a b) : ¬ stop b := by
  obtain ⟨ha, hab⟩ := h
  induction hab with
  | refl => exact ha
  | tail _ hbc _ => exact hbc.2

lemma ReachOff.tail {c : α} (h : ReachOff succ stop a b) (hbc : Edge succ b c) (hc : ¬ stop c) :
    ReachOff succ stop a c :=
  ⟨h.1, h.2.tail ⟨hbc, hc⟩⟩

lemma ReachOff.head {c : α} (ha : ¬ stop a) (hab : Edge succ a b) (h : ReachOff succ stop b c) :
    ReachOff succ stop a c :=
  ⟨ha, h.2.head ⟨hab, h.1⟩⟩

/-! ## Walks -/

lemma Walk.nil (succ : α → List α) (a : α) : Walk succ a [] := List.IsChain.singleton a

variable {p : List α}

lemma walk_cons : Walk succ a (b :: p) ↔ Edge succ a b ∧ Walk succ b p := by
  simp [Walk]

/-- Every node of a walk is reachable from its start. -/
lemma Walk.reach (h : Walk succ a p) : ∀ x ∈ a :: p, Reach succ a x := by
  induction p generalizing a with
  | nil =>
    intro x hx
    rw [List.mem_singleton] at hx
    rw [hx]
  | cons b p ih =>
    obtain ⟨hab, hp⟩ := walk_cons.mp h
    intro x hx
    rcases List.mem_cons.mp hx with rfl | hx
    · exact Relation.ReflTransGen.refl
    · exact Relation.ReflTransGen.head hab (ih hp x hx)

/-- Every node after the start is reachable from it in at least one edge. -/
lemma Walk.reachPlus (h : Walk succ a p) : ∀ x ∈ p, ReachPlus succ a x := by
  cases p with
  | nil => intro x hx; exact absurd hx (List.not_mem_nil)
  | cons b p =>
    obtain ⟨hab, hp⟩ := walk_cons.mp h
    intro x hx
    exact Relation.TransGen.head' hab (hp.reach x hx)

/-- **A walk of an acyclic graph never repeats a node.** -/
lemma Acyclic.walk_nodup (hac : Acyclic succ) (h : Walk succ a p) : (a :: p).Nodup := by
  induction p generalizing a with
  | nil => exact List.nodup_singleton a
  | cons b p ih =>
    obtain ⟨_, hp⟩ := walk_cons.mp h
    refine List.nodup_cons.mpr ⟨fun hmem => hac a (h.reachPlus a hmem), ih hp⟩

/-- A walk through a finite set of nodes of an acyclic graph is no longer than the set. -/
lemma Acyclic.walk_length_le (hac : Acyclic succ) (h : Walk succ a p) {nodes : List α}
    (hsub : ∀ x ∈ a :: p, x ∈ nodes) : (a :: p).length ≤ nodes.length :=
  (List.subperm_of_subset (hac.walk_nodup h) hsub).length_le

/-- The first `n` nodes after the start of an infinite walk form a walk. -/
lemma walk_of_infinite (f : ℕ → α) (hf : ∀ i, Edge succ (f i) (f (i + 1))) (n : ℕ) :
    ∀ k, Walk succ (f k) ((List.range n).map fun i => f (k + 1 + i)) := by
  induction n with
  | zero => intro k; exact Walk.nil succ (f k)
  | succ n ih =>
    intro k
    rw [List.range_succ_eq_map, List.map_cons, List.map_map]
    refine walk_cons.mpr ⟨by simpa using hf k, ?_⟩
    have hshift : ((fun i => f (k + 1 + i)) ∘ Nat.succ) = fun i => f (k + 1 + 1 + i) := by
      funext i
      simp only [Function.comp_apply]
      congr 1
      omega
    rw [hshift]
    simpa using ih (k + 1)

/-- **A finite acyclic graph has no infinite walk.** -/
lemma Acyclic.no_infinite_walk (hac : Acyclic succ) (nodes : List α) (f : ℕ → α)
    (hf : ∀ i, Edge succ (f i) (f (i + 1))) : ∃ i, f i ∉ nodes := by
  by_contra hall
  push Not at hall
  have hw := walk_of_infinite f hf nodes.length 0
  have hsub : ∀ x ∈ f 0 :: (List.range nodes.length).map (fun i => f (0 + 1 + i)), x ∈ nodes := by
    intro x hx
    rcases List.mem_cons.mp hx with rfl | hx
    · exact hall 0
    · obtain ⟨i, _, rfl⟩ := List.mem_map.mp hx
      exact hall _
  have hlen := hac.walk_length_le hw hsub
  rw [List.length_cons, List.length_map, List.length_range] at hlen
  omega

end Flowmind.Traversal
