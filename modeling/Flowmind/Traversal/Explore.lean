import Flowmind.Traversal.Walk

/-!
# Depth-first exploration

The recursive searches of this file mark a node, then visit its successors in order, threading the
list of marked nodes (in the order in which they were marked).  Lean wants a structural recursion,
so each search carries fuel; the specifications say how much is enough, in terms of a finite list
`nodes` that contains the start and is closed under `succ`.

* `explore` — mark everything reachable, never entering a node that `skip` rejects.
* `search` — the same traversal looking for one node, giving up as soon as it is met.

`mem_explore_iff` and `search_iff` identify what the two compute with `ReachOff` and `Reach`.
-/

namespace Flowmind.Traversal

variable {α : Type*}

/-! ## What an exploration has done -/

/-- `seen'` is `seen` together with all that `roots` reach off the skipped nodes. -/
structure Explored (succ : α → List α) (skip : α → Bool) (roots seen seen' : List α) : Prop where
  /-- Nothing is unmarked. -/
  mono : seen ⊆ seen'
  /-- The roots are marked. -/
  marked : ∀ r ∈ roots, skip r = false → r ∈ seen'
  /-- Only reachable nodes are marked. -/
  sound : ∀ x ∈ seen', x ∈ seen ∨ ∃ r ∈ roots, ReachOff succ (fun a => skip a = true) r x
  /-- A freshly marked node has its successors marked. -/
  closed : ∀ x ∈ seen', x ∉ seen → ∀ y ∈ succ x, skip y = false → y ∈ seen'

lemma Explored.nil (succ : α → List α) (skip : α → Bool) (seen : List α) :
    Explored succ skip [] seen seen where
  mono := fun _ h => h
  marked := fun _ hr => absurd hr (List.not_mem_nil)
  sound := fun _ hx => Or.inl hx
  closed := fun _ hx hnot => absurd hx hnot

variable {succ : α → List α} {skip : α → Bool}

/-- Exploring one root and then the others explores them all. -/
lemma Explored.cons {r : α} {rs s s' s'' : List α} (h : Explored succ skip [r] s s')
    (h' : Explored succ skip rs s' s'') : Explored succ skip (r :: rs) s s'' where
  mono := fun _ hx => h'.mono (h.mono hx)
  marked := by
    intro q hq hskip
    rcases List.mem_cons.mp hq with rfl | hq
    · exact h'.mono (h.marked q (List.mem_singleton_self q) hskip)
    · exact h'.marked q hq hskip
  sound := by
    intro x hx
    rcases h'.sound x hx with hx | ⟨q, hq, hreach⟩
    · rcases h.sound x hx with hx | ⟨q, hq, hreach⟩
      · exact Or.inl hx
      · exact Or.inr ⟨q, List.mem_cons.mpr (Or.inl (List.mem_singleton.mp hq)), hreach⟩
    · exact Or.inr ⟨q, List.mem_cons_of_mem r hq, hreach⟩
  closed := by
    intro x hx hnot y hy hskip
    by_cases hx' : x ∈ s'
    · exact h'.mono (h.closed x hx' hnot y hy hskip)
    · exact h'.closed x hx hx' y hy hskip

variable {key : α} {seen seen' : List α}

/-- Marking a node and exploring its successors explores the node. -/
lemma Explored.mark (hskip : skip key = false)
    (h : Explored succ skip (succ key) (seen ++ [key]) seen') :
    Explored succ skip [key] seen seen' where
  mono := fun _ hx => h.mono (List.mem_append_left [key] hx)
  marked := by
    intro r hr _
    rw [List.mem_singleton.mp hr]
    exact h.mono (List.mem_append_right seen (List.mem_singleton_self key))
  sound := by
    have hkey : ¬ skip key = true := by simp [hskip]
    intro x hx
    rcases h.sound x hx with hx | ⟨r, hr, hreach⟩
    · rcases List.mem_append.mp hx with hx | hx
      · exact Or.inl hx
      · rw [List.mem_singleton.mp hx]
        exact Or.inr ⟨key, List.mem_singleton_self key, hkey, Relation.ReflTransGen.refl⟩
    · exact Or.inr ⟨key, List.mem_singleton_self key, ReachOff.head hkey hr hreach⟩
  closed := by
    intro x hx hnot y hy hys
    by_cases hxk : x = key
    · exact h.marked y (hxk ▸ hy) hys
    · exact h.closed x hx (by simp [hnot, hxk]) y hy hys

/-- A skipped or already marked node needs no work. -/
lemma Explored.done (h : skip key = true ∨ key ∈ seen) : Explored succ skip [key] seen seen where
  mono := fun _ hx => hx
  marked := by
    intro r hr hskip
    rw [List.mem_singleton.mp hr] at hskip ⊢
    rcases h with h | h
    · exact absurd h (by simp [hskip])
    · exact h
  sound := fun _ hx => Or.inl hx
  closed := fun _ hx hnot => absurd hx hnot

/-- All that the roots reach, once they have been explored from nothing. -/
lemma Explored.mem_iff {roots : List α} (h : Explored succ skip roots [] seen') (x : α) :
    x ∈ seen' ↔ ∃ r ∈ roots, ReachOff succ (fun a => skip a = true) r x := by
  constructor
  · intro hx
    exact (h.sound x hx).resolve_left (List.not_mem_nil)
  · rintro ⟨r, hr, hstop, hreach⟩
    induction hreach with
    | refl => exact h.marked r hr (by simpa using hstop)
    | tail _ hbc ih => exact h.closed _ ih (List.not_mem_nil) _ hbc.1 (by simpa using hbc.2)

/-! ## The searches -/

variable [DecidableEq α]

/-- Visit `key`: nothing happens if it is skipped or already marked; otherwise it is marked and its
successors are visited in order. -/
def explore (succ : α → List α) (skip : α → Bool) : ℕ → List α → α → List α
  | 0, seen, _ => seen
  | fuel + 1, seen, key =>
    if skip key || decide (key ∈ seen) then seen
    else (succ key).foldl (explore succ skip fuel) (seen ++ [key])

/-- Visit `key` looking for `target`: the flag says whether the target was met, and a successor is
visited only if none before it led there. -/
def search (succ : α → List α) (target : α) : ℕ → List α → α → Bool × List α
  | 0, seen, key => (decide (key = target), seen)
  | fuel + 1, seen, key =>
    if key = target then (true, seen)
    else if key ∈ seen then (false, seen)
    else (succ key).foldl
      (fun found next => if found.1 then found else search succ target fuel found.2 next)
      (false, seen ++ [key])

/-! ## Fuel

`unseen nodes seen` counts the nodes still to be marked; it is what the fuel has to cover. -/

/-- How many of `nodes` are not marked yet. -/
def unseen (nodes seen : List α) : ℕ := (nodes.filter fun a => decide (a ∉ seen)).length

variable {nodes : List α}

lemma unseen_mono (h : seen ⊆ seen') : unseen nodes seen' ≤ unseen nodes seen := by
  refine (List.monotone_filter_right nodes ?_).length_le
  intro a ha
  simp only [decide_eq_true_eq] at ha ⊢
  exact fun hs => ha (h hs)

lemma unseen_mark (hkey : key ∈ nodes) (hseen : key ∉ seen) :
    unseen nodes (seen ++ [key]) < unseen nodes seen := by
  have hsplit : (nodes.filter fun a => decide (a ∉ seen ++ [key])) =
      (nodes.filter fun a => decide (a ∉ seen)).filter fun a => decide (a ≠ key) := by
    rw [List.filter_filter]
    refine List.filter_congr fun a _ => ?_
    simp only [List.mem_append, List.mem_singleton, not_or, Bool.decide_and]
    exact Bool.and_comm _ _
  unfold unseen
  rw [hsplit]
  refine List.length_filter_lt_length_iff_exists.mpr ⟨key, ?_, by simp⟩
  exact List.mem_filter.mpr ⟨hkey, by simpa using hseen⟩

lemma mem_of_unseen_eq_zero (hkey : key ∈ nodes) (h : unseen nodes seen = 0) : key ∈ seen := by
  by_contra hseen
  have := unseen_mark hkey hseen
  omega

/-! ## The exploration is correct -/

variable {fuel : ℕ}

/-- Visiting several roots in order, once one visit is known to explore. -/
lemma explored_foldl (hvisit : ∀ seen key, key ∈ nodes → unseen nodes seen ≤ fuel →
      Explored succ skip [key] seen (explore succ skip fuel seen key)) :
    ∀ (roots seen : List α), roots ⊆ nodes → unseen nodes seen ≤ fuel →
      Explored succ skip roots seen (roots.foldl (explore succ skip fuel) seen)
  | [], seen, _, _ => Explored.nil succ skip seen
  | r :: rs, seen, hsub, hfuel => by
    have hr := hvisit seen r (hsub List.mem_cons_self) hfuel
    refine hr.cons (explored_foldl hvisit rs _ (fun x hx => hsub (List.mem_cons_of_mem r hx)) ?_)
    exact (unseen_mono hr.mono).trans hfuel

/-- **With fuel for the unmarked nodes a visit explores its root.** -/
lemma explored_explore (hnodes : ClosedUnder succ nodes) :
    ∀ (fuel : ℕ) (seen : List α) (key : α), key ∈ nodes →
      unseen nodes seen ≤ fuel → Explored succ skip [key] seen (explore succ skip fuel seen key)
  | 0, seen, key, hkey, hfuel =>
    Explored.done (Or.inr (mem_of_unseen_eq_zero hkey (Nat.le_zero.mp hfuel)))
  | fuel + 1, seen, key, hkey, hfuel => by
    unfold explore
    split
    · rename_i hdone
      exact Explored.done (by simpa using hdone)
    · rename_i hdone
      simp only [Bool.or_eq_true, decide_eq_true_eq, not_or, Bool.not_eq_true] at hdone
      refine Explored.mark hdone.1 ?_
      have hroom := unseen_mark hkey hdone.2
      exact explored_foldl (explored_explore hnodes fuel) _ _ (hnodes key hkey) (by omega)

/-- **An exploration from nothing marks exactly what its start reaches off the skipped nodes.** -/
lemma mem_explore_iff {start : α} (hnodes : ClosedUnder succ nodes) (hstart : start ∈ nodes)
    (hfuel : nodes.length ≤ fuel) (x : α) :
    x ∈ explore succ skip fuel [] start ↔ ReachOff succ (fun a => skip a = true) start x := by
  have hroom : unseen nodes [] ≤ fuel := (List.length_filter_le _ nodes).trans hfuel
  rw [(explored_explore hnodes fuel [] start hstart hroom).mem_iff]
  simp

/-! ## The search is correct -/

/-- What visiting `roots` in search of `target` has established. -/
structure Searched (succ : α → List α) (target : α) (roots seen : List α)
    (result : Bool × List α) : Prop where
  /-- The target was met only where it is reachable. -/
  found : result.1 = true → ∃ r ∈ roots, Reach succ r target
  /-- Otherwise everything off the target was explored, … -/
  explored : result.1 = false → Explored succ (fun a => decide (a = target)) roots seen result.2
  /-- … no root was the target … -/
  missed : result.1 = false → target ∉ roots
  /-- … and no freshly marked node leads to it. -/
  missedNext : result.1 = false → ∀ x ∈ result.2, x ∉ seen → target ∉ succ x

lemma searched_foldl {target : α} (hvisit : ∀ seen key, key ∈ nodes → unseen nodes seen ≤ fuel →
      Searched succ target [key] seen (search succ target fuel seen key)) :
    ∀ (roots seen : List α), roots ⊆ nodes → unseen nodes seen ≤ fuel →
      Searched succ target roots seen (roots.foldl
        (fun found next => if found.1 then found else search succ target fuel found.2 next)
        (false, seen))
  | [], seen, _, _ =>
    ⟨fun h => absurd h (by simp), fun _ => Explored.nil succ _ seen, fun _ => List.not_mem_nil,
      fun _ x hx hnot => absurd hx hnot⟩
  | r :: rs, seen, hsub, hfuel => by
    have hr := hvisit seen r (hsub List.mem_cons_self) hfuel
    rw [List.foldl_cons]
    simp only [Bool.false_eq_true, if_false]
    rcases hres : search succ target fuel seen r with ⟨found, seen'⟩
    rw [hres] at hr
    cases found with
    | true =>
      -- Once the target has been met the remaining successors are left alone.
      have hkeep : ∀ ks : List α, ks.foldl (fun found next =>
          if found.1 then found else search succ target fuel found.2 next) (true, seen') =
            (true, seen') := by
        intro ks
        induction ks with
        | nil => rfl
        | cons k ks ih => simpa using ih
      rw [hkeep]
      obtain ⟨q, hq, hreach⟩ := hr.found rfl
      refine ⟨fun _ => ⟨r, List.mem_cons_self, List.mem_singleton.mp hq ▸ hreach⟩, ?_, ?_, ?_⟩
        <;> exact fun h => absurd h (by simp)
    | false =>
      have hexp := hr.explored rfl
      have hrest := searched_foldl hvisit rs seen'
        (fun x hx => hsub (List.mem_cons_of_mem r hx)) ((unseen_mono hexp.mono).trans hfuel)
      refine ⟨fun h => ?_, fun h => hexp.cons (hrest.explored h), fun h => ?_,
        fun h x hx hnot => ?_⟩
      · obtain ⟨q, hq, hreach⟩ := hrest.found h
        exact ⟨q, List.mem_cons_of_mem r hq, hreach⟩
      · have hhead := hr.missed rfl
        rw [List.mem_singleton] at hhead
        rw [List.mem_cons, not_or]
        exact ⟨hhead, hrest.missed h⟩
      · by_cases hx' : x ∈ seen'
        · exact hr.missedNext rfl x hx' hnot
        · exact hrest.missedNext h x hx hx'

lemma searched_search (target : α) (hnodes : ClosedUnder succ nodes) :
    ∀ (fuel : ℕ) (seen : List α) (key : α), key ∈ nodes →
      unseen nodes seen ≤ fuel → Searched succ target [key] seen (search succ target fuel seen key)
  | 0, seen, key, hkey, hfuel => by
    have hseen := mem_of_unseen_eq_zero hkey (Nat.le_zero.mp hfuel)
    refine ⟨fun h => ⟨key, List.mem_singleton_self key, ?_⟩, fun _ => Explored.done (Or.inr hseen),
      fun h => ?_, fun _ x hx hnot => absurd hx hnot⟩
    · have hkt : key = target := by simpa [search] using h
      exact hkt ▸ Relation.ReflTransGen.refl
    · have hkt : ¬ key = target := by simpa [search] using h
      simpa using fun h => hkt h.symm
  | fuel + 1, seen, key, hkey, hfuel => by
    unfold search
    by_cases hkt : key = target
    · rw [if_pos hkt]
      refine ⟨fun _ => ⟨key, List.mem_singleton_self key, hkt ▸ Relation.ReflTransGen.refl⟩,
        ?_, ?_, ?_⟩ <;> exact fun h => absurd h (by simp)
    · have hmiss : target ∉ [key] := by simpa using fun h => hkt h.symm
      rw [if_neg hkt]
      by_cases hseen : key ∈ seen
      · rw [if_pos hseen]
        exact ⟨fun h => absurd h (by simp), fun _ => Explored.done (Or.inr hseen),
          fun _ => hmiss, fun _ x hx hnot => absurd hx hnot⟩
      · rw [if_neg hseen]
        have hroom := unseen_mark hkey hseen
        have hrest := searched_foldl (searched_search target hnodes fuel) (succ key)
          (seen ++ [key]) (hnodes key hkey) (by omega)
        refine ⟨fun h => ?_, fun h => Explored.mark (by simpa using hkt) (hrest.explored h),
          fun _ => hmiss, fun h x hx hnot => ?_⟩
        · obtain ⟨q, hq, hreach⟩ := hrest.found h
          exact ⟨key, List.mem_singleton_self key, hreach.head hq⟩
        · by_cases hxk : x = key
          · exact hxk ▸ hrest.missed h
          · exact hrest.missedNext h x hx (by simp [hnot, hxk])

/-- **The search finds the target exactly where it is reachable.** -/
lemma search_iff {target start : α} (hnodes : ClosedUnder succ nodes) (hstart : start ∈ nodes)
    (hfuel : nodes.length ≤ fuel) :
    (search succ target fuel [] start).1 = true ↔ Reach succ start target := by
  have hroom : unseen nodes [] ≤ fuel := (List.length_filter_le _ nodes).trans hfuel
  have hs := searched_search target hnodes fuel [] start hstart hroom
  constructor
  · intro h
    simpa using hs.found h
  · intro hreach
    by_contra hnot
    have hfalse : (search succ target fuel [] start).1 = false := by simpa using hnot
    have hexp := hs.explored hfalse
    -- Nothing explored leads to the target, so the exploration never leaves the marked nodes.
    have hmarked : ∀ x, Reach succ start x → x ∈ (search succ target fuel [] start).2 := by
      intro x hx
      induction hx with
      | refl =>
        refine hexp.marked start (List.mem_singleton_self start) ?_
        have hne : target ∉ [start] := hs.missed hfalse
        simpa [eq_comm] using hne
      | tail _ hbc ih =>
        refine hexp.closed _ ih (List.not_mem_nil) _ hbc ?_
        have hnext := hs.missedNext hfalse _ ih (List.not_mem_nil)
        exact decide_eq_false fun heq => hnext (heq ▸ hbc)
    obtain ⟨r, _, hoff⟩ := (hexp.mem_iff target).mp (hmarked target hreach)
    exact hoff.not_stop (by simp)

end Flowmind.Traversal
