import Flowmind.Traversal.Explore

/-!
# Depth-first search for a cycle

The two-colour search: a node is *visiting* while its successors are being visited and *visited*
afterwards, and meeting a visiting node means that there is a cycle.  Two forms of it occur in
programs, and both are here.

* `cyclesFrom` — record the node at which a cycle closes and carry on.
* `acyclicFrom` — give up at the first one.

`cyclesFrom_acyclic` is the soundness of an empty record, `cyclesFrom_nil_of_acyclic` its converse,
and `acyclicFrom_eq` reduces the second form to the first.  The set of visiting nodes is restored
when a visit returns, so it is passed down and never returned.
-/

namespace Flowmind.Traversal

variable {α : Type*}

/-! ## Finished nodes -/

/-- What is known of the visited nodes while no cycle has been recorded. -/
structure Finished (succ : α → List α) (visiting visited : List α) : Prop where
  /-- They are closed under `succ`. -/
  closed : ClosedUnder succ visited
  /-- None of them is still being visited. -/
  disjoint : ∀ a ∈ visiting, a ∉ visited
  /-- None of them lies on a cycle. -/
  acyclic : ∀ a ∈ visited, ¬ ReachPlus succ a a

variable {succ : α → List α} {visiting : List α}

/-- A node may be marked visited when its successors are. -/
lemma Finished.mark {visited : List α} {key : α} (h : Finished succ (key :: visiting) visited)
    (hkey : key ∉ visiting) (hsucc : succ key ⊆ visited) : Finished succ visiting (visited ++ [key]) where
  closed := by
    intro a ha
    rcases List.mem_append.mp ha with ha | ha
    · exact fun b hb => List.mem_append_left [key] (h.closed a ha hb)
    · rw [List.mem_singleton.mp ha]
      exact fun b hb => List.mem_append_left [key] (hsucc hb)
  disjoint := by
    intro a ha hmem
    rcases List.mem_append.mp hmem with hmem | hmem
    · exact h.disjoint a (List.mem_cons_of_mem key ha) hmem
    · exact hkey (List.mem_singleton.mp hmem ▸ ha)
  acyclic := by
    intro a ha hcycle
    rcases List.mem_append.mp ha with ha | ha
    · exact h.acyclic a ha hcycle
    · -- A cycle through `key` stays in the visited nodes after one edge, so it never comes back.
      rw [List.mem_singleton.mp ha] at hcycle
      obtain ⟨b, hb, hreach⟩ := Relation.TransGen.head'_iff.mp hcycle
      exact h.disjoint key List.mem_cons_self (h.closed.reach (hsucc hb) hreach)

/-! ## The two searches -/

variable [DecidableEq α]

/-- Visit `key`; the state is the list of visited nodes and the nodes at which a cycle closed.  A
visit without fuel is recorded as a cycle, so running out can never hide one. -/
def cyclesFrom (succ : α → List α) : ℕ → List α → List α × List α → α → List α × List α
  | 0, _, (visited, cycles), key => (visited, cycles ++ [key])
  | fuel + 1, visiting, (visited, cycles), key =>
    if key ∈ visiting then (visited, cycles ++ [key])
    else if key ∈ visited then (visited, cycles)
    else
      let inner := (succ key).foldl (cyclesFrom succ fuel (key :: visiting)) (visited, cycles)
      (inner.1 ++ [key], inner.2)

/-- Visit `key`, giving up at the first cycle. -/
def acyclicFrom (succ : α → List α) : ℕ → List α → List α → α → Option (List α)
  | 0, _, _, _ => none
  | fuel + 1, visiting, visited, key =>
    if key ∈ visiting then none
    else if key ∈ visited then some visited
    else do
      let inner ← (succ key).foldlM (acyclicFrom succ fuel (key :: visiting)) visited
      return inner ++ [key]

/-! ## The record only grows -/

variable {fuel : ℕ}

lemma cycles_extend_foldl
    (hvisit : ∀ state key, state.2 <+: (cyclesFrom succ fuel visiting state key).2) :
    ∀ (keys : List α) (state : List α × List α),
      state.2 <+: (keys.foldl (cyclesFrom succ fuel visiting) state).2
  | [], _ => List.prefix_refl _
  | k :: ks, state => (hvisit state k).trans (cycles_extend_foldl hvisit ks _)

lemma cycles_extend : ∀ (fuel : ℕ) (visiting : List α)
    (state : List α × List α) (key : α), state.2 <+: (cyclesFrom succ fuel visiting state key).2
  | 0, _, (_, _), key => List.prefix_append _ [key]
  | fuel + 1, visiting, (visited, cycles), key => by
    unfold cyclesFrom
    split
    · exact List.prefix_append _ [key]
    · split
      · exact List.prefix_refl _
      · exact cycles_extend_foldl (cycles_extend fuel (key :: visiting)) (succ key) _

variable {keys : List α}

/-- A record that ends empty was empty all along. -/
lemma cycles_eq_nil {state : List α × List α}
    (h : (keys.foldl (cyclesFrom succ fuel visiting) state).2 = []) : state.2 = [] :=
  List.prefix_nil.mp (h ▸ cycles_extend_foldl (cycles_extend fuel visiting) keys state)

/-! ## An empty record means that there is no cycle -/

/-- `visited'` extends `visited` with `keys`, and is finished as well. -/
structure Finishes (succ : α → List α) (visiting keys visited visited' : List α) : Prop
    extends Finished succ visiting visited' where
  /-- Nothing is forgotten. -/
  mono : visited ⊆ visited'
  /-- The visited keys are there. -/
  keys_mem : keys ⊆ visited'

lemma finishes_foldl (hvisit : ∀ state key, Finished succ visiting state.1 →
      (cyclesFrom succ fuel visiting state key).2 = [] →
      Finishes succ visiting [key] state.1 (cyclesFrom succ fuel visiting state key).1) :
    ∀ (keys : List α) (state : List α × List α), Finished succ visiting state.1 →
      (keys.foldl (cyclesFrom succ fuel visiting) state).2 = [] →
      Finishes succ visiting keys state.1 (keys.foldl (cyclesFrom succ fuel visiting) state).1
  | [], _, hstate, _ => ⟨hstate, fun _ h => h, fun _ h => absurd h (List.not_mem_nil)⟩
  | k :: ks, state, hstate, hnil => by
    have hk := hvisit state k hstate (cycles_eq_nil hnil)
    have hks := finishes_foldl hvisit ks _ hk.toFinished hnil
    refine ⟨hks.toFinished, fun _ h => hks.mono (hk.mono h), fun a ha => ?_⟩
    rcases List.mem_cons.mp ha with rfl | ha
    · exact hks.mono (hk.keys_mem (List.mem_singleton_self a))
    · exact hks.keys_mem ha

lemma finishes_cyclesFrom : ∀ (fuel : ℕ) (visiting : List α)
    (state : List α × List α) (key : α), Finished succ visiting state.1 →
      (cyclesFrom succ fuel visiting state key).2 = [] →
      Finishes succ visiting [key] state.1 (cyclesFrom succ fuel visiting state key).1
  | 0, _, (_, _), _, _, hnil => absurd hnil (by simp [cyclesFrom])
  | fuel + 1, visiting, (visited, cycles), key, hstate, hnil => by
    unfold cyclesFrom at hnil ⊢
    by_cases hvisiting : key ∈ visiting
    · rw [if_pos hvisiting] at hnil
      exact absurd hnil (by simp)
    · rw [if_neg hvisiting] at hnil ⊢
      by_cases hvisited : key ∈ visited
      · rw [if_pos hvisited]
        exact ⟨hstate, fun _ h => h, by simpa using hvisited⟩
      · rw [if_neg hvisited] at hnil ⊢
        have hopen : Finished succ (key :: visiting) visited := by
          refine ⟨hstate.closed, fun a ha => ?_, hstate.acyclic⟩
          rcases List.mem_cons.mp ha with rfl | ha
          · exact hvisited
          · exact hstate.disjoint a ha
        have hinner := finishes_foldl (finishes_cyclesFrom fuel (key :: visiting)) (succ key)
          (visited, cycles) hopen hnil
        refine ⟨hinner.toFinished.mark hvisiting hinner.keys_mem, fun a ha => ?_, by simp⟩
        exact List.mem_append_left [key] (hinner.mono ha)

/-- **An empty record: none of the visited keys reaches a cycle.** -/
lemma cyclesFrom_acyclic (hnil : (keys.foldl (cyclesFrom succ fuel []) ([], [])).2 = []) {a : α}
    (ha : a ∈ keys) : ∀ b, Reach succ a b → ¬ ReachPlus succ b b := by
  have hinit : Finished succ [] ([] : List α) :=
    ⟨fun a ha => absurd ha (List.not_mem_nil), fun a ha => absurd ha (List.not_mem_nil),
      fun a ha => absurd ha (List.not_mem_nil)⟩
  have hfin := finishes_foldl (finishes_cyclesFrom fuel []) keys ([], []) hinit hnil
  exact fun b hab => hfin.acyclic b (hfin.closed.reach (hfin.keys_mem ha) hab)

/-! ## No cycle means an empty record -/

lemma cyclesFrom_foldl_snd :
    ∀ (keys : List α) (state : List α × List α),
      (∀ state, ∀ key ∈ keys, (cyclesFrom succ fuel visiting state key).2 = state.2) →
      (keys.foldl (cyclesFrom succ fuel visiting) state).2 = state.2
  | [], _, _ => rfl
  | k :: ks, state, hvisit => by
    rw [List.foldl_cons, cyclesFrom_foldl_snd ks _
      fun state key hkey => hvisit state key (List.mem_cons_of_mem k hkey)]
    exact hvisit state k List.mem_cons_self

/-- In an acyclic graph a visit records nothing: the visiting nodes form a walk to the current one,
so it is not among them, and they are too few for the fuel to run out. -/
lemma cyclesFrom_snd (hac : Acyclic succ) {nodes : List α} (hnodes : ClosedUnder succ nodes) :
    ∀ (fuel : ℕ) (visiting : List α) (key : α),
      key ∈ nodes → (∀ v ∈ visiting, ReachPlus succ v key) → visiting ⊆ nodes → visiting.Nodup →
      nodes.length < fuel + visiting.length →
      ∀ state, (cyclesFrom succ fuel visiting state key).2 = state.2
  | 0, visiting, key, _, _, hsub, hnodup, hfuel, _ => by
    have hlen := (List.subperm_of_subset hnodup hsub).length_le
    omega
  | fuel + 1, visiting, key, hkey, hreach, hsub, hnodup, hfuel, (visited, cycles) => by
    have hfresh : key ∉ visiting := fun hmem => hac key (hreach key hmem)
    unfold cyclesFrom
    rw [if_neg hfresh]
    by_cases hvisited : key ∈ visited
    · rw [if_pos hvisited]
    · rw [if_neg hvisited]
      refine cyclesFrom_foldl_snd _ _ fun state next hnext => ?_
      refine cyclesFrom_snd hac hnodes fuel (key :: visiting) next (hnodes key hkey hnext) ?_ ?_
        (List.nodup_cons.mpr ⟨hfresh, hnodup⟩) (by rw [List.length_cons]; omega) state
      · intro v hv
        rcases List.mem_cons.mp hv with rfl | hv
        · exact Relation.TransGen.single hnext
        · exact (hreach v hv).tail hnext
      · exact List.cons_subset.mpr ⟨hkey, hsub⟩

/-- **No cycle, no record**, given fuel for every node. -/
lemma cyclesFrom_nil_of_acyclic (hac : Acyclic succ) {nodes : List α}
    (hnodes : ClosedUnder succ nodes) (hfuel : nodes.length < fuel) (hkeys : keys ⊆ nodes) :
    (keys.foldl (cyclesFrom succ fuel []) ([], [])).2 = [] :=
  cyclesFrom_foldl_snd keys ([], []) fun state key hkey =>
    cyclesFrom_snd hac hnodes fuel [] key (hkeys hkey) (fun _ hv => absurd hv (List.not_mem_nil))
      (List.nil_subset nodes) List.nodup_nil (by simpa using hfuel) state

/-! ## Giving up at the first cycle -/

/-- The visited nodes of a finished search, if it recorded no cycle. -/
def unlessCycle (state : List α × List α) : Option (List α) :=
  if state.2 = [] then some state.1 else none

lemma acyclicFrom_foldlM_eq (hvisit : ∀ visited key, acyclicFrom succ fuel visiting visited key =
      unlessCycle (cyclesFrom succ fuel visiting (visited, []) key)) :
    ∀ (keys visited : List α), keys.foldlM (acyclicFrom succ fuel visiting) visited =
      unlessCycle (keys.foldl (cyclesFrom succ fuel visiting) (visited, []))
  | [], visited => rfl
  | k :: ks, visited => by
    rw [List.foldlM_cons, List.foldl_cons, hvisit]
    rcases hres : cyclesFrom succ fuel visiting (visited, []) k with ⟨visited', cycles⟩
    cases cycles with
    | nil => exact acyclicFrom_foldlM_eq hvisit ks visited'
    | cons c cs =>
      have hne : (ks.foldl (cyclesFrom succ fuel visiting) (visited', c :: cs)).2 ≠ [] :=
        fun hnil => absurd (cycles_eq_nil hnil) (by simp)
      simp [unlessCycle, hne]

/-- Giving up succeeds exactly when nothing would have been recorded, with the same result. -/
lemma acyclicFrom_eq : ∀ (fuel : ℕ) (visiting visited : List α) (key : α),
    acyclicFrom succ fuel visiting visited key =
      unlessCycle (cyclesFrom succ fuel visiting (visited, []) key)
  | 0, _, _, _ => by simp [acyclicFrom, cyclesFrom, unlessCycle]
  | fuel + 1, visiting, visited, key => by
    unfold acyclicFrom cyclesFrom
    by_cases hvisiting : key ∈ visiting
    · simp [hvisiting, unlessCycle]
    · by_cases hvisited : key ∈ visited
      · simp [hvisiting, hvisited, unlessCycle]
      · simp only [if_neg hvisiting, if_neg hvisited]
        rw [acyclicFrom_foldlM_eq (acyclicFrom_eq fuel (key :: visiting))]
        unfold unlessCycle
        split <;> simp

/-- The search over all keys gives up exactly when a cycle would have been recorded. -/
lemma acyclicFrom_isSome_iff :
    (keys.foldlM (acyclicFrom succ fuel []) []).isSome = true ↔
      (keys.foldl (cyclesFrom succ fuel []) ([], [])).2 = [] := by
  rw [acyclicFrom_foldlM_eq (acyclicFrom_eq fuel [])]
  unfold unlessCycle
  split <;> simp_all

end Flowmind.Traversal
