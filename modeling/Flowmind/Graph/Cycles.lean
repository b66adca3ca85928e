import Flowmind.Graph.Validation
import Flowmind.Traversal.Opened

/-!
# Both validators find the cycles

The API looks for cycles before a definition is stored, and reports each; the worker looks for them
before it runs one, and gives up at the first.  Here both are compared with the directed graph of
the edges as they are written.

* `Joins` — the endpoints of an edge as written; `HasCycle`.
* `cycle_detection_exact` — each validator finds a cycle if and only if there is one, and goes
  through the edges of a step at most once.
* `empty_key_hides_cycle` — the API takes an endpoint with an empty key for a missing one.
-/

namespace Flowmind

open Traversal

/-- The edge leads from one key to the other, as they are written. -/
def GraphEdgeLike.Joins (edge : GraphEdgeLike) (a b : String) : Prop :=
  edge.fromValue = some (.str a) ∧ edge.toValue = some (.str b)

/-- The edges as written, without trimming. -/
def Written (edges : List GraphEdgeLike) (a b : String) : Prop := ∃ edge ∈ edges, edge.Joins a b

/-- The edges of the worker's graph. -/
def RuntimeGraph.Leads (graph : RuntimeGraph) (a b : String) : Prop :=
  ∃ edge ∈ graph.edges, edge.fromKey = a ∧ edge.toKey = b

/-- There is a directed cycle. -/
def HasCycle (edge : String → String → Prop) : Prop := ∃ key, Relation.TransGen edge key key

/-- A key that is not empty and has no space around it. -/
def IsKey (key : String) : Prop := key ≠ "" ∧ jsTrim key = key

instance (key : String) : Decidable (IsKey key) := inferInstanceAs (Decidable (_ ∧ _))

lemma IsKey.stringValue_eq {key : String} (h : IsKey key) :
    stringValue (some (.str key)) = some key := by
  simp [stringValue, Json.asString?, h.1, h.2]

lemma not_acyclic_iff {succ : String → List String} : ¬ Acyclic succ ↔ HasCycle (Edge succ) := by
  simp [Acyclic, HasCycle]

/-! ## The API -/

variable {stepKeys : List String}

namespace Validation

variable {edges : List GraphEdgeLike}

/-- Between such keys the API sees the edges as they are written. -/
lemma edge_succ_eq_written (hkeys : ∀ key ∈ stepKeys, IsKey key)
    (hedges : ∀ edge ∈ edges, ∃ a ∈ stepKeys, ∃ b ∈ stepKeys, edge.Joins a b) :
    Edge (succ edges) = Written edges := by
  have hjoins : ∀ edge ∈ edges, ∀ a b,
      edge.from? = some a ∧ edge.to? = some b ↔ edge.Joins a b := by
    intro edge hedge a b
    obtain ⟨c, hc, d, hd, hfrom, hto⟩ := hedges edge hedge
    rw [GraphEdgeLike.from?, GraphEdgeLike.to?, GraphEdgeLike.Joins, hfrom, hto,
      (hkeys c hc).stringValue_eq, (hkeys d hd).stringValue_eq]
    simp
  funext a b
  rw [eq_iff_iff, edge_iff]
  refine exists_congr fun edge => ?_
  exact and_congr_right fun hedge => hjoins edge hedge a b

/-- The steps are closed under the edges. -/
lemma closedUnder_of_written (h : Edge (succ edges) = Written edges)
    (hedges : ∀ edge ∈ edges, ∃ a ∈ stepKeys, ∃ b ∈ stepKeys, edge.Joins a b) :
    ClosedUnder (succ edges) stepKeys := by
  intro a _ b hb
  have hwritten : Written edges a b := h ▸ hb
  obtain ⟨edge, hedge, hjoins⟩ := hwritten
  obtain ⟨c, _, d, hd, hfrom, hto⟩ := hedges edge hedge
  have : d = b := by simpa using hto.symm.trans hjoins.2
  exact this ▸ hd

/-- `acyclicIssues`, with the record of the search and any fuel that is enough. -/
lemma acyclicIssues_eq_searchAll (hclosed : ClosedUnder (succ edges) stepKeys) {fuel : ℕ}
    (hfuel : stepKeys.length < fuel) :
    acyclicIssues stepKeys edges = (searchAll false (succ edges) fuel stepKeys).cycles.map
      fun key => issue "cycle" "Workflow graph cannot contain cycles." (some key) := by
  have hfound := congrArg Prod.snd
    (found_searchAll (succ edges) (stepKeys.length + edges.length + 1) stepKeys)
  rw [acyclicIssues, ← hfound, searchAll_of_lt false hclosed (List.Subset.refl _) hfuel,
    searchAll_of_lt false hclosed (List.Subset.refl _) (by omega)]
  rfl

/-- Nothing but cycles is reported. -/
lemma exists_cycle_iff : (∃ reported ∈ acyclicIssues stepKeys edges, reported.code = "cycle") ↔
    acyclicIssues stepKeys edges ≠ [] := by
  constructor
  · rintro ⟨reported, hmem, -⟩
    exact List.ne_nil_of_mem hmem
  · intro hne
    obtain ⟨reported, hmem⟩ := List.exists_mem_of_ne_nil _ hne
    refine ⟨reported, hmem, ?_⟩
    obtain ⟨key, -, rfl⟩ := List.mem_map.mp hmem
    rfl

/-- The API reports a cycle if and only if there is one. -/
lemma acyclicIssues_ne_nil_iff (hclosed : ClosedUnder (succ edges) stepKeys)
    (hfrom : ∀ edge ∈ edges, ∀ a, edge.from? = some a → a ∈ stepKeys) :
    acyclicIssues stepKeys edges ≠ [] ↔ HasCycle (Edge (succ edges)) := by
  rw [← not_acyclic_iff, not_iff_not]
  constructor
  · exact acyclic_of_acyclicIssues hfrom
  · intro hacyclic
    rw [acyclicIssues, List.map_eq_nil_iff]
    exact cyclesFrom_nil_of_acyclic hacyclic hclosed (by omega) (List.Subset.refl _)

end Validation

/-! ## The worker -/

namespace RuntimeGraph

variable {graph : RuntimeGraph}

/-- `assertAcyclic`, with the record of the search and any fuel that is enough. -/
lemma assertAcyclic_eq_searchAll (hclosed : ClosedUnder graph.succ stepKeys) {fuel : ℕ}
    (hfuel : stepKeys.length < fuel) :
    graph.assertAcyclic stepKeys = (searchAll true graph.succ fuel stepKeys).finished := by
  rw [assertAcyclic, finished_searchAll, searchAll_of_lt true hclosed (List.Subset.refl _) hfuel]

end RuntimeGraph

/-! ## Both -/

open Validation in
/-- **Both validators find the cycles.**  For steps with trimmed keys that are not empty, and edges
between them:

* the API reports a cycle if and only if there is one;
* the worker throws if and only if there is one;
* both are searches that go through the edges of a step at most once, whatever the fuel that they
  are given, if there is enough of it. -/
theorem cycle_detection_exact {stepKeys : List String} (hkeys : ∀ key ∈ stepKeys, IsKey key)
    {edges : List GraphEdgeLike}
    (hedges : ∀ edge ∈ edges, ∃ a ∈ stepKeys, ∃ b ∈ stepKeys, edge.Joins a b)
    {graph : RuntimeGraph}
    (hgraph : ∀ edge ∈ graph.edges, edge.fromKey ∈ stepKeys ∧ edge.toKey ∈ stepKeys) :
    ((∃ reported ∈ acyclicIssues stepKeys edges, reported.code = "cycle") ↔
        HasCycle (Written edges)) ∧
      (graph.assertAcyclic stepKeys = none ↔ HasCycle graph.Leads) ∧
      ∀ fuel, stepKeys.length < fuel →
        (acyclicIssues stepKeys edges = (searchAll false (succ edges) fuel stepKeys).cycles.map
            (fun key => issue "cycle" "Workflow graph cannot contain cycles." (some key)) ∧
          (searchAll false (succ edges) fuel stepKeys).opened.Nodup) ∧
        (graph.assertAcyclic stepKeys = (searchAll true graph.succ fuel stepKeys).finished ∧
          (searchAll true graph.succ fuel stepKeys).opened.Nodup) := by
  have hwritten := edge_succ_eq_written hkeys hedges
  have hclosed := closedUnder_of_written hwritten hedges
  have hleads : Edge graph.succ = graph.Leads := by
    funext a b
    rw [RuntimeGraph.edge_iff, RuntimeGraph.Leads]
  have hclosedGraph : ClosedUnder graph.succ stepKeys := by
    intro a _ b hb
    obtain ⟨edge, hedge, -, rfl⟩ := RuntimeGraph.edge_iff.mp hb
    exact (hgraph edge hedge).2
  refine ⟨?_, ?_, fun fuel hfuel => ⟨⟨?_, nodup_opened _ _ _⟩, ?_, nodup_opened _ _ _⟩⟩
  · have hfrom : ∀ edge ∈ edges, ∀ a, edge.from? = some a → a ∈ stepKeys := by
      intro edge hedge a ha
      obtain ⟨c, hc, d, -, hjoins⟩ := hedges edge hedge
      rw [GraphEdgeLike.from?, hjoins.1, (hkeys c hc).stringValue_eq] at ha
      exact Option.some.inj ha ▸ hc
    rw [← hwritten, ← acyclicIssues_ne_nil_iff hclosed hfrom, exists_cycle_iff]
  · rw [← hleads, ← not_acyclic_iff, ← RuntimeGraph.assertAcyclic_isNone_eq_false_iff
      (fun edge hedge => (hgraph edge hedge).1) (fun edge hedge => (hgraph edge hedge).2)]
    simp
  · exact acyclicIssues_eq_searchAll hclosed hfuel
  · exact RuntimeGraph.assertAcyclic_eq_searchAll hclosedGraph hfuel

/-- An edge as the API stores it. -/
def plainEdge (a b : String) : GraphEdgeLike := ⟨some (.str a), some (.str b), none, none⟩

/-- Two steps, one after the other. -/
def twoSteps : RuntimeGraph := ⟨"a", [⟨"a", "b", .next, none, none⟩], none⟩

/-- Two steps in a circle, and the same two steps without the way back. -/
theorem cycle_detection_exact_of_circle :
    HasCycle (Written [plainEdge "a" "b", plainEdge "b" "a"]) ∧ ¬ HasCycle twoSteps.Leads := by
  have hkeys : ∀ key ∈ ["a", "b"], IsKey key := by decide +kernel
  have hedges : ∀ edge ∈ [plainEdge "a" "b", plainEdge "b" "a"],
      ∃ a ∈ ["a", "b"], ∃ b ∈ ["a", "b"], edge.Joins a b := by
    simp [plainEdge, GraphEdgeLike.Joins]
  have hgraph : ∀ edge ∈ twoSteps.edges, edge.fromKey ∈ ["a", "b"] ∧ edge.toKey ∈ ["a", "b"] := by
    decide
  have hexact := cycle_detection_exact hkeys hedges hgraph
  refine ⟨hexact.1.mp (by decide +kernel), fun hcycle => ?_⟩
  have hthrows : twoSteps.assertAcyclic ["a", "b"] ≠ none := by decide +kernel
  exact hthrows (hexact.2.1.mpr hcycle)

/-- An edge from the empty key to itself is a cycle, and the API takes it for an edge without
endpoints. -/
theorem empty_key_hides_cycle :
    [""].Nodup ∧ jsTrim "" = "" ∧ HasCycle (Written [plainEdge "" ""]) ∧
      Validation.acyclicIssues [""] [plainEdge "" ""] = [] := by
  refine ⟨by decide, by decide +kernel, ?_, by decide +kernel⟩
  exact ⟨"", .single ⟨_, List.mem_singleton.mpr rfl, rfl, rfl⟩⟩

end Flowmind
