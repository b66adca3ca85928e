import Flowmind.Traversal.Cycle

/-!
# How often a search for cycles goes through a node

Both searches for cycles, with a record of the nodes whose successors have been gone through.  The
search that gives up at the first cycle does nothing any more once a cycle has been recorded.

* `visitKey`, `searchAll` — a visit and the whole search, with the record; `found_searchAll` and
  `finished_searchAll` — without the record it is the search of either form.
* `nodup_opened` — the successors of a node are gone through at most once.
* `searchAll_of_lt` — with fuel for every node, more of it changes nothing.
-/

namespace Flowmind.Traversal

variable {α : Type*} [DecidableEq α]

/-- The visited nodes, those at which a cycle closed, and those whose successors have been gone
through, in the order in which this began. -/
structure SearchState (α : Type*) where
  visited : List α
  cycles : List α
  opened : List α

/-- Visit `key`.  With `halt` the search gives up at the first cycle. -/
def visitKey (halt : Bool) (succ : α → List α) : ℕ → List α → SearchState α → α → SearchState α
  | 0, _, s, key => { s with cycles := s.cycles ++ [key] }
  | fuel + 1, visiting, s, key =>
    if halt = true ∧ s.cycles ≠ [] then s
    else if key ∈ visiting then { s with cycles := s.cycles ++ [key] }
    else if key ∈ s.visited then s
    else
      let inner := (succ key).foldl (visitKey halt succ fuel (key :: visiting))
        { s with opened := s.opened ++ [key] }
      { inner with visited := inner.visited ++ [key] }

/-- The whole search, from each of the keys in turn. -/
def searchAll (halt : Bool) (succ : α → List α) (fuel : ℕ) (keys : List α) : SearchState α :=
  keys.foldl (visitKey halt succ fuel []) ⟨[], [], []⟩

variable {succ : α → List α}

/-! ## Each node is gone through once -/

/-- Every node that has been gone through is still being visited or has been visited. -/
structure Marks (visiting : List α) (s : SearchState α) : Prop where
  nodup : s.opened.Nodup
  marked : ∀ a ∈ s.opened, a ∈ visiting ∨ a ∈ s.visited

variable {visiting : List α}

omit [DecidableEq α] in
lemma Marks.foldl {visit : SearchState α → α → SearchState α}
    (hvisit : ∀ s key, Marks visiting s → Marks visiting (visit s key)) (keys : List α) :
    ∀ s, Marks visiting s → Marks visiting (keys.foldl visit s) := by
  induction keys with
  | nil => intro s hs; exact hs
  | cons key keys ih => intro s hs; exact ih _ (hvisit s key hs)

/-- A visit keeps the marks: a node is opened only if it has none. -/
lemma marks_visitKey (halt : Bool) (fuel : ℕ) :
    ∀ (visiting : List α) (s : SearchState α) (key : α), Marks visiting s →
      Marks visiting (visitKey halt succ fuel visiting s key) := by
  induction fuel with
  | zero => intro visiting s key hs; exact ⟨hs.nodup, hs.marked⟩
  | succ fuel ih =>
    intro visiting s key hs
    rw [visitKey]
    split_ifs with hhalt hvisiting hvisited
    · exact hs
    · exact ⟨hs.nodup, hs.marked⟩
    · exact hs
    · have hfresh : key ∉ s.opened := fun hmem =>
        (hs.marked key hmem).elim hvisiting hvisited
      have hopened : Marks (key :: visiting) { s with opened := s.opened ++ [key] } := by
        refine ⟨hs.nodup.append (List.nodup_singleton key) (by simpa using hfresh), ?_⟩
        intro a ha
        rcases List.mem_append.mp ha with ha | ha
        · exact (hs.marked a ha).imp_left (List.mem_cons_of_mem key)
        · exact .inl (by simp [List.mem_singleton.mp ha])
      have hinner := Marks.foldl (ih (key :: visiting)) (succ key) _ hopened
      refine ⟨hinner.nodup, fun a ha => ?_⟩
      rcases hinner.marked a ha with hmem | hmem
      · rcases List.mem_cons.mp hmem with rfl | hmem
        · exact .inr (by simp)
        · exact .inl hmem
      · exact .inr (List.mem_append_left _ hmem)

/-- **The successors of a node are gone through at most once.** -/
lemma nodup_opened (halt : Bool) (fuel : ℕ) (keys : List α) :
    (searchAll halt succ fuel keys).opened.Nodup := by
  have hinit : Marks [] (⟨[], [], []⟩ : SearchState α) := ⟨List.nodup_nil, by simp⟩
  exact (Marks.foldl (marks_visitKey halt fuel []) keys _ hinit).nodup

/-! ## Without the record -/

/-- What the search that goes on keeps. -/
def SearchState.found (s : SearchState α) : List α × List α := (s.visited, s.cycles)

variable {fuel : ℕ}

lemma found_foldl (hvisit : ∀ s key, (visitKey false succ fuel visiting s key).found =
      cyclesFrom succ fuel visiting s.found key) (keys : List α) :
    ∀ s, (keys.foldl (visitKey false succ fuel visiting) s).found =
      keys.foldl (cyclesFrom succ fuel visiting) s.found := by
  induction keys with
  | nil => intro s; rfl
  | cons key keys ih =>
    intro s
    rw [List.foldl_cons, List.foldl_cons, ih, hvisit]

/-- The search that goes on. -/
lemma found_visitKey (fuel : ℕ) :
    ∀ (visiting : List α) (s : SearchState α) (key : α),
      (visitKey false succ fuel visiting s key).found =
        cyclesFrom succ fuel visiting s.found key := by
  induction fuel with
  | zero => intro visiting s key; rfl
  | succ fuel ih =>
    intro visiting s key
    have hinner := found_foldl (ih (key :: visiting)) (succ key)
      { s with opened := s.opened ++ [key] }
    simp only [visitKey, cyclesFrom, SearchState.found] at hinner ⊢
    by_cases hvisiting : key ∈ visiting
    · simp [hvisiting]
    · by_cases hvisited : key ∈ s.visited
      · simp [hvisiting, hvisited]
      · simp [hvisiting, hvisited, ← hinner]

lemma found_searchAll (succ : α → List α) (fuel : ℕ) (keys : List α) :
    (searchAll false succ fuel keys).found = keys.foldl (cyclesFrom succ fuel []) ([], []) :=
  found_foldl (found_visitKey fuel []) keys _

/-- What the search that gives up returns. -/
def SearchState.finished (s : SearchState α) : Option (List α) :=
  if s.cycles = [] then some s.visited else none

/-- Once a cycle has been recorded, it stays. -/
lemma cycles_ne_nil_foldl (keys : List α) :
    ∀ s : SearchState α, s.cycles ≠ [] →
      (keys.foldl (visitKey true succ fuel visiting) s).cycles ≠ [] := by
  induction keys with
  | nil => intro s hs; exact hs
  | cons key keys ih =>
    intro s hs
    refine ih _ ?_
    cases fuel with
    | zero => simp [visitKey]
    | succ fuel => simp [visitKey, hs]

lemma finished_foldl
    (hvisit : ∀ s key, s.cycles = [] → acyclicFrom succ fuel visiting s.visited key =
      (visitKey true succ fuel visiting s key).finished) (keys : List α) :
    ∀ s, s.cycles = [] → keys.foldlM (acyclicFrom succ fuel visiting) s.visited =
      (keys.foldl (visitKey true succ fuel visiting) s).finished := by
  induction keys with
  | nil => intro s hs; simp [SearchState.finished, hs]
  | cons key keys ih =>
    intro s hs
    rw [List.foldlM_cons, List.foldl_cons, hvisit s key hs]
    by_cases hnext : (visitKey true succ fuel visiting s key).cycles = []
    · rw [SearchState.finished, if_pos hnext]
      exact ih _ hnext
    · rw [SearchState.finished, if_neg hnext, SearchState.finished,
        if_neg (cycles_ne_nil_foldl keys _ hnext)]
      rfl

/-- The search that gives up. -/
lemma finished_visitKey (fuel : ℕ) :
    ∀ (visiting : List α) (s : SearchState α) (key : α), s.cycles = [] →
      acyclicFrom succ fuel visiting s.visited key =
        (visitKey true succ fuel visiting s key).finished := by
  induction fuel with
  | zero => intro visiting s key _; simp [acyclicFrom, visitKey, SearchState.finished]
  | succ fuel ih =>
    intro visiting s key hs
    have hinner := finished_foldl (ih (key :: visiting)) (succ key)
      { s with opened := s.opened ++ [key] } hs
    by_cases hvisiting : key ∈ visiting
    · simp [acyclicFrom, visitKey, SearchState.finished, hs, hvisiting]
    · by_cases hvisited : key ∈ s.visited
      · simp [acyclicFrom, visitKey, SearchState.finished, hs, hvisiting, hvisited]
      · simp only [acyclicFrom, visitKey, hs, ne_eq, not_true_eq_false, and_false,
          if_false] at hinner ⊢
        rw [hinner]
        simp only [SearchState.finished]
        split_ifs <;> rfl

lemma finished_searchAll (succ : α → List α) (fuel : ℕ) (keys : List α) :
    keys.foldlM (acyclicFrom succ fuel []) [] = (searchAll true succ fuel keys).finished :=
  finished_foldl (finished_visitKey fuel []) keys ⟨[], [], []⟩ rfl

/-! ## Enough fuel -/

/-- With fuel for every node that is not being visited, one more unit changes nothing. -/
lemma visitKey_succ_fuel (halt : Bool) {nodes : List α} (hnodes : ClosedUnder succ nodes)
    (fuel : ℕ) : ∀ (visiting : List α) (s : SearchState α) (key : α), key ∈ nodes →
      visiting ⊆ nodes → visiting.Nodup → nodes.length < fuel + visiting.length →
      visitKey halt succ (fuel + 1) visiting s key = visitKey halt succ fuel visiting s key := by
  induction fuel with
  | zero =>
    intro visiting s key _ hsub hnodup hfuel
    have hlength := (List.subperm_of_subset hnodup hsub).length_le
    omega
  | succ fuel ih =>
    intro visiting s key hkey hsub hnodup hfuel
    rw [visitKey, visitKey]
    by_cases hvisiting : key ∈ visiting
    · simp only [hvisiting, if_true]
    · have hinner : ∀ s, (succ key).foldl (visitKey halt succ (fuel + 1) (key :: visiting)) s =
          (succ key).foldl (visitKey halt succ fuel (key :: visiting)) s := fun s => by
        refine List.foldl_ext _ _ s fun s next hnext => ?_
        refine ih (key :: visiting) s next (hnodes key hkey hnext) ?_ ?_ ?_
        · exact List.cons_subset.mpr ⟨hkey, hsub⟩
        · exact List.nodup_cons.mpr ⟨hvisiting, hnodup⟩
        · rw [List.length_cons]
          omega
      simp only [hinner]

/-- **More fuel changes nothing** once there is some for every node. -/
lemma searchAll_of_lt (halt : Bool) {nodes : List α} (hnodes : ClosedUnder succ nodes)
    {keys : List α} (hkeys : keys ⊆ nodes) (hfuel : nodes.length < fuel) :
    searchAll halt succ fuel keys = searchAll halt succ (nodes.length + 1) keys := by
  induction fuel, hfuel using Nat.le_induction with
  | base => rfl
  | succ fuel hfuel ih =>
    rw [← ih]
    refine List.foldl_ext _ _ _ fun s key hkey => ?_
    exact visitKey_succ_fuel halt hnodes fuel [] s key (hkeys hkey) (List.nil_subset nodes)
      List.nodup_nil hfuel

end Flowmind.Traversal
