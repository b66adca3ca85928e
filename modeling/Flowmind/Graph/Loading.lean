import Flowmind.Graph.Cycles

/-!
# What the API accepts and what the worker loads

The API stores the graph of a definition as it was sent, and trims keys and kinds only while it
validates.  The worker does not trim: a key with a space is not a step for it, and an edge whose
kind has a space is dropped.

* `Loads` — the worker loads the graph that the API has analysed.
* `Tidy` — no text of the graph that the API trims has space around it.
* `loads_iff_tidy` — an accepted definition is loaded as it was analysed if and only if it is tidy.
* `padded_entry_not_loaded` — an entry with a space is accepted, and cannot be run.
-/

namespace Flowmind

open Traversal

/-! ## Edges on both sides -/

/-- The endpoints, the kind and the case of an edge. -/
structure EdgeView where
  fromKey : Option String
  toKey : Option String
  kind : Option EdgeKind
  caseKey : Option String
deriving DecidableEq, Repr

/-- What the validator has analysed. -/
def GraphEdgeLike.analysed (edge : GraphEdgeLike) : EdgeView :=
  ⟨edge.from?, edge.to?, edge.kind?, edge.case?⟩

/-- What the worker has loaded. -/
def RuntimeGraphEdge.loaded (edge : RuntimeGraphEdge) : EdgeView :=
  ⟨some edge.fromKey, some edge.toKey, some edge.kind, edge.caseKey⟩

/-- The worker loads the graph that the validator has analysed, and accepts it. -/
def Loads (js : JsLib) (steps : List GraphStepLike) (graph definition : Json) : Prop :=
  ∃ runtime, parseRuntimeGraph js definition = some runtime ∧
    validateRuntimeGraph runtime (steps.map (·.key)) = .ok () ∧
    some runtime.entryStepKey = stringValue (graph.get? "entryStepKey") ∧
    runtime.edges.map (·.loaded) = (normalizedEdges (some graph)).map (·.analysed)

/-! ## Texts without space around them -/

/-- The items of `graph.edges`. -/
def edgeItems (graph : Json) : List Json := (Json.asArray? (graph.get? "edges")).getD []

/-- If the value is a text, there is no space around it. -/
def TidyText (value : Option Json) : Prop := ∀ s, Json.asString? value = some s → jsTrim s = s

/-- If the value is a text, it is not empty and there is no space around it. -/
def TidyKey (value : Option Json) : Prop := ∀ s, Json.asString? value = some s → IsKey s

structure TidyEdge (edge : Json) : Prop where
  fromKey : TidyText (edge.get? "from")
  toKey : TidyText (edge.get? "to")
  kind : TidyText (edge.get? "kind")
  caseKey : TidyKey (edge.get? "caseKey")

structure Tidy (graph : Json) : Prop where
  entry : TidyText (graph.get? "entryStepKey")
  edges : ∀ edge ∈ edgeItems graph, TidyEdge edge

lemma jsTrim_empty : jsTrim "" = "" := by decide +kernel

lemma stringValue_str (raw : String) :
    stringValue (some (.str raw)) = if jsTrim raw = "" then none else some (jsTrim raw) := rfl

variable {value : Option Json}

lemma stringValue_eq_some_iff {key : String} :
    stringValue value = some key ↔
      ∃ raw, value = some (.str raw) ∧ jsTrim raw = key ∧ key ≠ "" := by
  constructor
  · intro h
    obtain ⟨raw, rfl, -⟩ := exists_str_of_stringValue h
    rw [stringValue_str] at h
    split_ifs at h with hempty
    cases h
    exact ⟨raw, rfl, rfl, hempty⟩
  · rintro ⟨raw, rfl, rfl, hempty⟩
    rw [stringValue_str, if_neg hempty]

/-- Trimming changes nothing exactly if there is no space around the text. -/
lemma tidyText_str {raw : String} : TidyText (some (.str raw)) ↔ raw = jsTrim raw := by
  simp [TidyText, Json.asString?, eq_comm]

/-- Both sides read the same case. -/
lemma asString?_eq_stringValue_iff : Json.asString? value = stringValue value ↔ TidyKey value := by
  cases hraw : Json.asString? value with
  | none => simp [TidyKey, stringValue, hraw]
  | some raw =>
    obtain rfl := Json.asString?_eq_some_iff.mp hraw
    rw [stringValue_str]
    simp only [TidyKey, hraw, Option.some.injEq, forall_eq']
    split_ifs with hempty
    · simp only [false_iff]
      rintro ⟨hne, htrim⟩
      exact hne (htrim.symm.trans hempty)
    · rw [Option.some.injEq]
      constructor
      · intro heq
        exact ⟨fun hraw => hempty (heq ▸ hraw), heq.symm⟩
      · rintro ⟨-, htrim⟩
        exact htrim.symm

lemma eq_name_of_ofName? {s : String} {kind : EdgeKind} (h : EdgeKind.ofName? s = some kind) :
    s = kind.name := by
  have := List.find?_some h
  simpa using (decide_eq_true_eq.mp this).symm

/-! ## One edge -/

/-- The edge as the validator sees it. -/
def edgeLike (edge : Json) : GraphEdgeLike :=
  ⟨edge.get? "from", edge.get? "to", edge.get? "kind", edge.get? "caseKey"⟩

lemma normalizedEdges_eq (graph : Json) :
    normalizedEdges (some graph) = (edgeItems graph).map edgeLike := rfl

variable {js : JsLib} {stepKeys : List String}

/-- **A valid edge is loaded as it was analysed exactly if it is tidy.** -/
lemma loaded_iff_tidyEdge {edge : Json}
    (h : Validation.isValidEdge stepKeys (edgeLike edge) = true) :
    (parseRuntimeGraphEdge js edge).map (·.loaded) = some (edgeLike edge).analysed ↔
      TidyEdge edge := by
  simp only [Validation.isValidEdge, Bool.and_eq_true, Option.any_eq_true,
    Option.isSome_iff_exists] at h
  obtain ⟨⟨⟨a, hfrom, -⟩, b, hto, -⟩, kind, hkind⟩ := h
  obtain ⟨f, hf, rfl, hfne⟩ := stringValue_eq_some_iff.mp hfrom
  obtain ⟨t, ht, rfl, htne⟩ := stringValue_eq_some_iff.mp hto
  obtain ⟨name, hname, hofName⟩ := Option.bind_eq_some_iff.mp hkind
  obtain ⟨k, hk, rfl, -⟩ := stringValue_eq_some_iff.mp hname
  have hf' : edge.get? "from" = some (.str f) := hf
  have ht' : edge.get? "to" = some (.str t) := ht
  have hk' : edge.get? "kind" = some (.str k) := hk
  have hnonempty : ¬ (f = "" ∨ t = "") := by
    rintro (rfl | rfl)
    · exact hfne jsTrim_empty
    · exact htne jsTrim_empty
  have hkindIff : EdgeKind.ofName? k = some kind ↔ k = jsTrim k := by
    constructor
    · intro h
      rw [eq_name_of_ofName? hofName, ← eq_name_of_ofName? h]
    · intro h
      rw [h, hofName]
  have hanalysed : (edgeLike edge).analysed =
      ⟨some (jsTrim f), some (jsTrim t), some kind, stringValue (edge.get? "caseKey")⟩ := by
    rw [GraphEdgeLike.analysed, hfrom, hto, hkind]
    rfl
  have hloaded : (parseRuntimeGraphEdge js edge).map (·.loaded) =
      (EdgeKind.ofName? k).map fun kind =>
        ⟨some f, some t, some kind, Json.asString? (edge.get? "caseKey")⟩ := by
    rw [parseRuntimeGraphEdge, hf', ht', hk']
    simp only [Json.stringOrEmpty, Json.orElse, Json.toJsString, if_neg hnonempty, Option.map_map]
    rfl
  rw [hloaded, hanalysed, Option.map_eq_some_iff]
  constructor
  · rintro ⟨kind', hkind', heq⟩
    simp only [EdgeView.mk.injEq, Option.some.injEq] at heq
    obtain ⟨hfeq, hteq, rfl, hcase⟩ := heq
    refine ⟨?_, ?_, ?_, asString?_eq_stringValue_iff.mp hcase⟩
    · rw [hf', tidyText_str]
      exact hfeq
    · rw [ht', tidyText_str]
      exact hteq
    · rw [hk', tidyText_str]
      exact hkindIff.mp hkind'
  · intro htidy
    have hfeq := htidy.fromKey
    have hteq := htidy.toKey
    have hkeq := htidy.kind
    rw [hf', tidyText_str] at hfeq
    rw [ht', tidyText_str] at hteq
    rw [hk', tidyText_str] at hkeq
    refine ⟨kind, hkindIff.mpr hkeq, ?_⟩
    rw [← hfeq, ← hteq, asString?_eq_stringValue_iff.mpr htidy.caseKey]

/-! ## The whole graph -/

variable {graph : Json}

lemma edges_loaded_iff (js : JsLib)
    (h : ∀ edge ∈ edgeItems graph, Validation.isValidEdge stepKeys (edgeLike edge) = true) :
    ((edgeItems graph).filterMap (parseRuntimeGraphEdge js)).map (·.loaded) =
        (normalizedEdges (some graph)).map (·.analysed) ↔
      ∀ edge ∈ edgeItems graph, TidyEdge edge := by
  rw [List.map_filterMap, normalizedEdges_eq, List.map_map,
    List.filterMap_eq_map_iff_forall_eq_some]
  exact forall₂_congr fun edge hedge => loaded_iff_tidyEdge (h edge hedge)

variable {runtime : RuntimeGraph}

/-- Graphs with the same views have the same edges. -/
lemma edge_succ_eq_of_views {edges : List GraphEdgeLike}
    (h : runtime.edges.map (·.loaded) = edges.map (·.analysed)) :
    Edge runtime.succ = Edge (Validation.succ edges) := by
  funext a b
  rw [RuntimeGraph.edge_iff, Validation.edge_iff]
  have hloaded : (∃ edge ∈ runtime.edges, edge.fromKey = a ∧ edge.toKey = b) ↔
      ∃ view ∈ runtime.edges.map (·.loaded), view.fromKey = some a ∧ view.toKey = some b := by
    simp [RuntimeGraphEdge.loaded]
  have hanalysed : (∃ edge ∈ edges, edge.from? = some a ∧ edge.to? = some b) ↔
      ∃ view ∈ edges.map (·.analysed), view.fromKey = some a ∧ view.toKey = some b := by
    simp [GraphEdgeLike.analysed]
  rw [hloaded, hanalysed, h]

/-- The worker accepts what the validator has analysed. -/
lemma validateRuntimeGraph_of_views {steps : List GraphStepLike}
    (haccepted : Validation.Accepted js steps (some graph) runtime.entryStepKey)
    (hedges : runtime.edges.map (·.loaded) = (normalizedEdges (some graph)).map (·.analysed)) :
    validateRuntimeGraph runtime (steps.map (·.key)) = .ok () := by
  have hedge := edge_succ_eq_of_views hedges
  have hview : ∀ edge ∈ runtime.edges, ∃ stored ∈ normalizedEdges (some graph),
      stored.analysed = edge.loaded := by
    intro edge hmem
    have hloaded : edge.loaded ∈ runtime.edges.map (·.loaded) := List.mem_map_of_mem hmem
    rw [hedges] at hloaded
    exact List.mem_map.mp hloaded
  refine validateRuntimeGraph_eq_ok_iff.mpr ⟨haccepted.entry_mem, ?_, ?_, ?_⟩
  · intro edge hmem
    obtain ⟨stored, hstored, heq⟩ := hview edge hmem
    exact haccepted.from_mem stored hstored _ (congrArg EdgeView.fromKey heq)
  · intro edge hmem
    obtain ⟨stored, hstored, heq⟩ := hview edge hmem
    obtain ⟨b, hb, hbmem⟩ := haccepted.to_mem stored hstored
    have hto : some b = some edge.toKey := hb.symm.trans (congrArg EdgeView.toKey heq)
    exact Option.some.inj hto ▸ hbmem
  · intro a hcycle
    have hacyclic := haccepted.acyclic a
    rw [ReachPlus, ← hedge] at hacyclic
    exact hacyclic hcycle

/-- **An accepted definition is loaded as it was analysed if and only if it is tidy.**  If the
validator reports nothing and the graph is stored in a definition of schema version 2, then the
worker loads a graph with the entry and the edges that the validator has analysed, and accepts it,
if and only if no entry, endpoint, kind or case in the graph has space around it and no case is
empty. -/
theorem loads_iff_tidy (js : JsLib) (steps : List GraphStepLike) (graph definition : Json)
    (h : validateGraphV2 js steps (some graph) = [])
    (hversion : definition.get? "workflowDefinitionSchemaVersion" = some (.num 2))
    (hgraph : definition.get? "graph" = some graph) :
    Loads js steps graph definition ↔ Tidy graph := by
  obtain ⟨entry, haccepted⟩ := accepted_of_validateGraphV2 h
  obtain ⟨raw, hraw, rfl, hne⟩ := stringValue_eq_some_iff.mp haccepted.entry_eq
  have hentry : graph.get? "entryStepKey" = some (.str raw) := hraw
  have hvalid : ∀ edge ∈ edgeItems graph,
      Validation.isValidEdge (steps.map (·.key)) (edgeLike edge) = true := fun edge hedge =>
    Validation.isValidEdge_of_edgeIssues [] [] _ haccepted.edges _
      (normalizedEdges_eq graph ▸ List.mem_map_of_mem hedge)
  have hnonempty : raw ≠ "" := by
    rintro rfl
    exact hne jsTrim_empty
  obtain ⟨terminal, hparsed⟩ : ∃ terminal, parseRuntimeGraph js definition =
      some ⟨raw, (edgeItems graph).filterMap (parseRuntimeGraphEdge js), terminal⟩ := by
    rw [parseRuntimeGraph, hversion, hgraph]
    simp [Json.strictEq, Json.field, Json.asString?, hentry, hnonempty, edgeItems]
  constructor
  · rintro ⟨runtime, hruntime, -, hkey, hedges⟩
    cases hparsed.symm.trans hruntime
    refine ⟨?_, (edges_loaded_iff js hvalid).mp hedges⟩
    rw [hentry, stringValue_str, if_neg hne] at hkey
    rw [hentry, tidyText_str]
    exact Option.some.inj hkey
  · intro htidy
    have htrim := htidy.entry
    rw [hentry, tidyText_str] at htrim
    have hedges := (edges_loaded_iff js hvalid).mpr htidy.edges
    refine ⟨_, hparsed, ?_, ?_, hedges⟩
    · rw [← htrim] at haccepted
      exact validateRuntimeGraph_of_views haccepted hedges
    · rw [hentry, stringValue_str, if_neg hne, ← htrim]

/-! ## Definitions -/

/-- A definition with the graph as it was sent. -/
def stored (graph : Json) : Json :=
  .obj [("workflowDefinitionSchemaVersion", .num 2), ("graph", graph)]

/-- Two steps. -/
def trialSteps : List GraphStepLike :=
  [⟨none, "a", .transform, .obj []⟩, ⟨none, "b", .transform, .obj []⟩]

/-- One after the other, from the entry. -/
def trialGraph (entry : String) : Json :=
  .obj [("entryStepKey", .str entry),
    ("edges", .arr [.obj [("from", .str "a"), ("to", .str "b"), ("kind", .str "next")]])]

lemma tidy_trialGraph : Tidy (trialGraph "a") := by
  refine ⟨tidyText_str.mpr (by decide +kernel), fun edge hedge => ?_⟩
  obtain rfl := List.mem_singleton.mp hedge
  refine ⟨?_, ?_, ?_, ?_⟩
  · exact tidyText_str.mpr (by decide +kernel)
  · exact tidyText_str.mpr (by decide +kernel)
  · exact tidyText_str.mpr (by decide +kernel)
  · rintro s ⟨⟩

/-- A tidy graph is loaded. -/
theorem loads_iff_tidy_of_trial :
    Loads JsLib.integers trialSteps (trialGraph "a") (stored (trialGraph "a")) :=
  (loads_iff_tidy JsLib.integers trialSteps (trialGraph "a") (stored (trialGraph "a"))
    (by decide +kernel) rfl rfl).mpr tidy_trialGraph

/-- With a space before the entry the definition is accepted, and the worker rejects its graph. -/
theorem padded_entry_not_loaded :
    validateGraphV2 JsLib.integers trialSteps (some (trialGraph " a")) = [] ∧
      (parseRuntimeGraph JsLib.integers (stored (trialGraph " a"))).map
          (fun runtime => validateRuntimeGraph runtime (trialSteps.map (·.key))) =
        some (.error "Workflow graph entry step is invalid") :=
  ⟨by decide +kernel, by decide +kernel⟩

end Flowmind
