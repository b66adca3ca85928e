import Flowmind.Traversal.Walk

/-!
# Regions of a graph with one entry and one exit

A region is a set of nodes with a distinguished *entry*, a *boundary* at which it ends and an
*owner* from which it is entered.  `SingleEntrySingleExit` says what it means for it to be closed
off, in terms of the walks of the graph:

* a walk from the entry stays in the region until it first meets the boundary;
* a walk from the entry that cannot be continued has met the boundary, and so has an infinite one;
* a walk from the start of the graph into the region has passed through the owner.

`RegionChecked` collects the local conditions on nodes and edges that a program can check, and
`RegionChecked.singleEntrySingleExit` is the theorem that they are enough in a finite acyclic graph.
For the converse, `reach_boundary_of_exits` derives from the walks what the program checks of each
node.
-/

namespace Flowmind.Traversal

variable {α : Type*}

/-- The region `keys` is closed off but for its entry, reached through `owner`, and its boundary. -/
structure SingleEntrySingleExit (succ : α → List α) (start owner entry boundary : α)
    (keys : List α) : Prop where
  /-- A walk from the entry is in the region as long as it has not met the boundary. -/
  stays : ∀ p, Walk succ entry p → ∀ q, q <+: entry :: p → boundary ∉ q → q ⊆ keys
  /-- A walk from the entry that cannot be continued meets the boundary. -/
  exits : ∀ p, Walk succ entry p → (∀ x, (entry :: p).getLast? = some x → succ x = []) →
    boundary ∈ entry :: p
  /-- An infinite walk from the entry would meet it as well. -/
  exitsInfinite : ∀ f : ℕ → α, f 0 = entry → (∀ i, Edge succ (f i) (f (i + 1))) →
    ∃ i, f i = boundary
  /-- A walk from the start into the region passes through the owner. -/
  enters : ∀ p, Walk succ start p → ∀ x ∈ keys, x ∈ start :: p → owner ∈ start :: p

/-- What is checked of a region: it is what the entry reaches before the boundary, all of it leads
to the boundary, and the edges into it come from the owner or from `guarded` nodes. -/
structure RegionChecked (succ : α → List α) (owner entry boundary : α) (keys : List α)
    (guarded : α → Prop) : Prop where
  mem_keys : ∀ x, x ∈ keys ↔ ReachOff succ (· = boundary) entry x
  leads : ∀ x ∈ keys, Reach succ x boundary
  entered : ∀ a b, Edge succ a b → b ∈ keys → a ∉ keys → a = owner ∨ guarded a
  owner_entry : Edge succ owner entry

/-! ## Walks and reachability off a node -/

variable {succ : α → List α} {a : α} {p : List α}

/-- A walk that avoids a set of nodes stays in what is reachable off it. -/
lemma Walk.reachOff {stop : α → Prop} (h : Walk succ a p) (hoff : ∀ x ∈ a :: p, ¬ stop x) :
    ∀ x ∈ a :: p, ReachOff succ stop a x := by
  induction p generalizing a with
  | nil =>
    intro x hx
    rw [List.mem_singleton.mp hx]
    exact ⟨hoff a (List.mem_singleton_self a), Relation.ReflTransGen.refl⟩
  | cons b p ih =>
    obtain ⟨hab, hp⟩ := walk_cons.mp h
    have ha := hoff a List.mem_cons_self
    intro x hx
    rcases List.mem_cons.mp hx with rfl | hx
    · exact ⟨ha, Relation.ReflTransGen.refl⟩
    · exact ReachOff.head ha hab (ih hp (fun y hy => hoff y (List.mem_cons_of_mem a hy)) x hx)

/-- A nonempty prefix of a walk is a walk with the same start. -/
lemma Walk.of_prefix {b : α} {q : List α} (h : Walk succ a p) (hq : b :: q <+: a :: p) :
    b = a ∧ Walk succ b q := by
  obtain ⟨rest, hrest⟩ := hq
  have hchain : ((b :: q) ++ rest).IsChain (Edge succ) := hrest ▸ h
  exact ⟨(List.cons.inj hrest).1, hchain.left_of_append⟩

/-- The walk cannot be continued. -/
def Maximal (succ : α → List α) (a : α) (p : List α) : Prop :=
  ∀ x, (a :: p).getLast? = some x → succ x = []

variable {entry boundary : α}

/-- Where every node before the boundary leads there, a maximal walk meets it. -/
lemma Walk.mem_of_leads (hp : Walk succ entry p)
    (hleads : ∀ x, ReachOff succ (· = boundary) entry x → Reach succ x boundary)
    (hmaximal : Maximal succ entry p) : boundary ∈ entry :: p := by
  by_contra hboundary
  obtain ⟨x, hx⟩ : ∃ x, (entry :: p).getLast? = some x :=
    ⟨_, List.getLast?_eq_some_getLast (List.cons_ne_nil entry p)⟩
  have hmem : x ∈ entry :: p := List.mem_of_getLast? hx
  have hoff : ∀ y ∈ entry :: p, ¬ y = boundary := fun y hy heq => hboundary (heq ▸ hy)
  -- The last node leads to the boundary but has no successor, so it is the boundary.
  rcases Relation.ReflTransGen.cases_head (hleads x (hp.reachOff hoff x hmem)) with
    heq | ⟨y, hy, _⟩
  · exact hboundary (heq ▸ hmem)
  · have hnone := hmaximal x hx
    rw [Edge, hnone] at hy
    exact absurd hy (List.not_mem_nil)

/-! ## Entering a region -/

/-- Every walk from `start` to a node of `keys` passes through `owner`. -/
def DominatedBy (succ : α → List α) (start owner : α) (keys : List α) : Prop :=
  ∀ x ∈ keys, ¬ ReachOff succ (· = owner) start x

variable {start owner : α} {keys : List α}

/-- If the start is outside and all edges into the region come from the owner or from nodes that the
owner dominates already, then the owner dominates the region. -/
lemma DominatedBy.of_entered (hstart : start ∉ keys)
    (hentered : ∀ a b, Edge succ a b → b ∈ keys → a ∉ keys →
      a = owner ∨ ¬ ReachOff succ (· = owner) start a) : DominatedBy succ start owner keys := by
  rintro x hx ⟨hstop, hreach⟩
  induction hreach with
  | refl => exact hstart hx
  | tail hab hbc ih =>
    rename_i b c
    have hb : ReachOff succ (· = owner) start b := ⟨hstop, hab⟩
    by_cases hmem : b ∈ keys
    · exact ih hmem
    · rcases hentered b c hbc.1 hx hmem with rfl | hnot
      · exact hb.not_stop rfl
      · exact hnot hb

variable {guarded : α → Prop}

section

variable (hac : Acyclic succ) (h : RegionChecked succ owner entry boundary keys guarded)
  (howner : Reach succ start owner)
include hac h howner

/-- In an acyclic graph the start is outside every region whose owner it reaches. -/
lemma RegionChecked.start_notMem : start ∉ keys := by
  intro hmem
  have hentry : Reach succ entry start := ((h.mem_keys start).mp hmem).reach
  have hcycle : ReachPlus succ owner owner :=
    Relation.TransGen.head' h.owner_entry (hentry.trans howner)
  exact hac owner hcycle

/-- The owner dominates the region if it dominates the guarded nodes. -/
lemma RegionChecked.dominatedBy (hguarded : ∀ a, guarded a → ¬ ReachOff succ (· = owner) start a) :
    DominatedBy succ start owner keys := by
  refine DominatedBy.of_entered (h.start_notMem hac howner) fun a b hab hb ha => ?_
  exact (h.entered a b hab hb ha).imp_right (hguarded a)

end

/-! ## The criterion -/

variable {nodes : List α}

/-- **The local conditions close the region off.** -/
theorem RegionChecked.singleEntrySingleExit (hac : Acyclic succ) (hnodes : ClosedUnder succ nodes)
    (h : RegionChecked succ owner entry boundary keys guarded) (hentry : entry ∈ nodes)
    (howner : Reach succ start owner)
    (hguarded : ∀ a, guarded a → ¬ ReachOff succ (· = owner) start a) :
    SingleEntrySingleExit succ start owner entry boundary keys where
  stays := by
    intro p hp q hq hboundary x hx
    cases q with
    | nil => exact absurd hx (List.not_mem_nil)
    | cons b q =>
      obtain ⟨rfl, hwalk⟩ := hp.of_prefix hq
      refine (h.mem_keys x).mpr (hwalk.reachOff (fun y hy heq => ?_) x hx)
      exact hboundary (heq ▸ hy)
  exits := by
    intro p hp hmaximal
    refine hp.mem_of_leads (fun x hx => ?_) hmaximal
    exact h.leads x ((h.mem_keys x).mpr hx)
  exitsInfinite := by
    intro f hzero hf
    obtain ⟨i, hi⟩ := hac.no_infinite_walk nodes f hf
    have hreach : Reach succ entry (f i) := by
      rw [← hzero]
      clear hi
      induction i with
      | zero => exact Relation.ReflTransGen.refl
      | succ i ih => exact ih.tail (hf i)
    exact absurd (hnodes.reach hentry hreach) hi
  enters := by
    have hdom := h.dominatedBy hac howner hguarded
    intro p hp x hx hmem
    by_contra hnot
    have hoff : ∀ y ∈ start :: p, ¬ y = owner := fun y hy heq => hnot (heq ▸ hy)
    exact hdom x hx (hp.reachOff hoff x hmem)

/-! ## Maximal walks -/

/-- A walk that can be continued. -/
lemma Walk.snoc {x y : α} (h : Walk succ a p) (hx : (a :: p).getLast? = some x)
    (hxy : Edge succ x y) : Walk succ a (p ++ [y]) := by
  rw [Walk, ← List.cons_append, List.isChain_append]
  refine ⟨h, List.IsChain.singleton y, fun z hz w hw => ?_⟩
  obtain rfl : x = z := Option.some.inj (hx.symm.trans hz)
  obtain rfl : y = w := by simpa using hw
  exact hxy

/-- **From every node of a finite acyclic graph there is a walk that cannot be continued.** -/
lemma Acyclic.exists_maximal (hac : Acyclic succ) (hnodes : ClosedUnder succ nodes)
    (ha : a ∈ nodes) : ∃ p, Walk succ a p ∧ Maximal succ a p := by
  have hlong : ∀ n, (∃ p, Walk succ a p ∧ Maximal succ a p) ∨
      ∃ p, Walk succ a p ∧ p.length = n := by
    intro n
    induction n with
    | zero => exact .inr ⟨[], Walk.nil succ a, rfl⟩
    | succ n ih =>
      rcases ih with hmax | ⟨p, hp, hlen⟩
      · exact .inl hmax
      · obtain ⟨x, hx⟩ : ∃ x, (a :: p).getLast? = some x :=
          ⟨_, List.getLast?_eq_some_getLast (List.cons_ne_nil a p)⟩
        cases hsucc : succ x with
        | nil =>
          refine .inl ⟨p, hp, fun y hy => ?_⟩
          rw [← Option.some.inj (hx.symm.trans hy), hsucc]
        | cons y ys =>
          have hedge : Edge succ x y := by simp [Edge, hsucc]
          exact .inr ⟨p ++ [y], hp.snoc hx hedge, by simp [hlen]⟩
  rcases hlong nodes.length with hmax | ⟨p, hp, hlen⟩
  · exact hmax
  · have hshort := hac.walk_length_le hp fun x hx => hnodes.reach ha (hp.reach x hx)
    rw [List.length_cons] at hshort
    omega

/-- Reachability off a set is witnessed by a walk off it. -/
lemma ReachOff.exists_walk {stop : α → Prop} {b : α} (h : ReachOff succ stop a b) :
    ∃ p, Walk succ a p ∧ (a :: p).getLast? = some b ∧ ∀ x ∈ a :: p, ¬ stop x := by
  obtain ⟨ha, hab⟩ := h
  induction hab with
  | refl => exact ⟨[], Walk.nil succ a, rfl, by simpa using ha⟩
  | tail hab hbc ih =>
    rename_i b c
    obtain ⟨p, hp, hlast, hoff⟩ := ih
    have hend : (a :: (p ++ [c])).getLast? = some c := by
      rw [← List.cons_append, List.getLast?_append]
      rfl
    refine ⟨p ++ [c], hp.snoc hlast hbc.1, hend, fun x hx => ?_⟩
    rw [← List.cons_append, List.mem_append, List.mem_singleton] at hx
    rcases hx with hx | rfl
    · exact hoff x hx
    · exact hbc.2

/-- **Where every maximal walk from the entry meets the boundary, every node before it leads
there.** -/
lemma reach_boundary_of_exits (hac : Acyclic succ) (hnodes : ClosedUnder succ nodes)
    (hentry : entry ∈ nodes)
    (hexits : ∀ p, Walk succ entry p → Maximal succ entry p → boundary ∈ entry :: p) {x : α}
    (hx : ReachOff succ (· = boundary) entry x) : Reach succ x boundary := by
  obtain ⟨p, hp, hmax⟩ := hac.exists_maximal hnodes (hnodes.reach hentry hx.reach)
  by_contra hnot
  -- Otherwise the end of the walk is off the boundary, and the walk to it could be continued.
  have hoff : ∀ y ∈ x :: p, ¬ y = boundary := fun y hy heq => hnot (heq ▸ hp.reach y hy)
  obtain ⟨y, hy⟩ : ∃ y, (x :: p).getLast? = some y :=
    ⟨_, List.getLast?_eq_some_getLast (List.cons_ne_nil x p)⟩
  have hreach : ReachOff succ (· = boundary) entry y :=
    ⟨hx.1, hx.2.trans (hp.reachOff hoff y (List.mem_of_getLast? hy)).2⟩
  obtain ⟨q, hq, hlast, hqoff⟩ := hreach.exists_walk
  have hmeets := hexits q hq fun z hz => by
    rw [← Option.some.inj (hlast.symm.trans hz)]
    exact hmax y hy
  exact hqoff boundary hmeets rfl

end Flowmind.Traversal
