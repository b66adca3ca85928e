import Flowmind.Graph.Regions

/-!
# Try blocks that the validation should accept

A TRY_CATCH step has a Body, a Catch and a Done, and the executor runs it with or without a Finally.
The validation checks the three regions alike, and reports the missing Finally of a block without
one as an empty region.

* `WellStructured` — a try block as it should be, in terms of the walks of the graph.
* `validateTryCatch_iff_finally` — the validation accepts such a block if and only if it has a
  Finally.
* `block_without_finally_rejected`.
-/

namespace Flowmind.Validation

open Traversal

deriving instance DecidableEq for TryEntries

/-! ## Well-structured blocks -/

/-- The step lies in a region: it is reached from its entry before the region ends. -/
def InRegion (edges : List GraphEdgeLike) (entries : TryEntries) (part : TryPart) (key : String) :
    Prop :=
  ∃ start, entries.entry part = some start ∧
    ReachOff (succ edges) (· = entries.target part) start key

/-- An edge into a region that belongs to the block: from the try step to the entry, or from Body
and Catch to Finally. -/
def Structured (step : GraphStepLike) (edges : List GraphEdgeLike) (entries : TryEntries)
    (part : TryPart) (edge : GraphEdgeLike) (a b : String) : Prop :=
  (a = step.key ∧ entries.entry part = some b ∧ edge.kind? = some part.kind) ∨
    (part = .finalized ∧ entries.finallyEntry = some b ∧
      (InRegion edges entries .body a ∨ InRegion edges entries .caught a))

/-- A try block as it should be. -/
structure WellStructured (step : GraphStepLike) (steps : List GraphStepLike)
    (edges : List GraphEdgeLike) (entries : TryEntries) : Prop where
  /-- One connection to Body, Catch and Done each, and at most one to Finally. -/
  body : (outgoingOfKind step.key .tryBody edges).length = 1
  caught : (outgoingOfKind step.key .tryCatch edges).length = 1
  done : (outgoingOfKind step.key .tryDone edges).length = 1
  finalized : (outgoingOfKind step.key .tryFinally edges).length ≤ 1
  /-- There are no other connections. -/
  connections : ∀ edge ∈ outgoingEdges step.key edges, ∃ kind, edge.kind? = some kind ∧
    kind ∈ [EdgeKind.tryBody, .tryCatch, .tryFinally, .tryDone]
  /-- They lead to the entries. -/
  targets : tryEntries? step.key edges = some entries
  /-- A region has its entry in it. -/
  inside : ∀ part start, entries.entry part = some start → start ≠ entries.target part
  /-- A path from the entry that cannot be continued has met the end of the region. -/
  exits : ∀ part start, entries.entry part = some start →
    ∀ p, Walk (succ edges) start p → Maximal (succ edges) start p → entries.target part ∈ start :: p
  disjoint : ∀ part other key, InRegion edges entries part key → InRegion edges entries other key →
    part = other
  /-- There is no other try step in a region. -/
  nested : ∀ other ∈ steps, other.type = .tryCatch → other.key ≠ step.key →
    ∀ part, ¬ InRegion edges entries part other.key
  /-- There are no other edges into a region. -/
  entered : ∀ edge ∈ edges, ∀ a b, edge.from? = some a → edge.to? = some b →
    ∀ part, InRegion edges entries part b → ¬ InRegion edges entries part a →
      Structured step edges entries part edge a b

lemma TryPart.mem_all (part : TryPart) : part ∈ TryPart.all := by
  cases part <;> decide

section Block

variable {js : JsLib} {step : GraphStepLike} {steps : List GraphStepLike}
  {edges : List GraphEdgeLike} {entries : TryEntries} {part : TryPart}

lemma mem_region_iff {key : String} :
    key ∈ entries.region edges part ↔ InRegion edges entries part key := by
  rw [TryEntries.region, InRegion]
  cases hentry : entries.entry part with
  | none => simp
  | some start => simp [mem_descendantsUntil_iff]

section

variable (h : WellStructured step steps edges entries) (hac : Acyclic (succ edges))
include h hac

/-- A region leads to its end. -/
lemma WellStructured.leads {key : String} (hkey : InRegion edges entries part key) :
    Reach (succ edges) key (entries.target part) := by
  obtain ⟨start, hstart, hreach⟩ := hkey
  exact reach_boundary_of_exits hac (closedUnder_nodesFrom edges start) List.mem_cons_self
    (h.exits part start hstart) hreach

/-- The try step is in none of its regions. -/
lemma WellStructured.step_notInRegion (part : TryPart) : ¬ InRegion edges entries part step.key := by
  rintro ⟨start, hstart, hreach⟩
  exact hac step.key (Relation.TransGen.head' (edge_of_tryEntries h.targets hstart) hreach.reach)

end

variable {start : String}

lemma WellStructured.entry_inRegion (h : WellStructured step steps edges entries) (part : TryPart)
    (hstart : entries.entry part = some start) : InRegion edges entries part start :=
  ⟨start, hstart, h.inside part start hstart, Relation.ReflTransGen.refl⟩

/-- The edge belongs to the block, by the regions as the validation computes them. -/
def isStructured (step : GraphStepLike) (edges : List GraphEdgeLike) (entries : TryEntries)
    (part : TryPart) (edge : GraphEdgeLike) (a b : String) : Bool :=
  decide (a = step.key ∧ entries.entry part = some b ∧ edge.kind? = some part.kind) ||
    decide (part = .finalized ∧ entries.finallyEntry = some b ∧
      (a ∈ entries.region edges .body ∨ a ∈ entries.region edges .caught))

/-- The structure of a block, from its regions as the validation computes them. -/
lemma WellStructured.of_regions (hbody : (outgoingOfKind step.key .tryBody edges).length = 1)
    (hcaught : (outgoingOfKind step.key .tryCatch edges).length = 1)
    (hdone : (outgoingOfKind step.key .tryDone edges).length = 1)
    (hfinally : (outgoingOfKind step.key .tryFinally edges).length ≤ 1)
    (hconnections : ∀ edge ∈ outgoingEdges step.key edges,
      edge.kind? ∈ [EdgeKind.tryBody, .tryCatch, .tryFinally, .tryDone].map some)
    (htargets : tryEntries? step.key edges = some entries)
    (hinside : ∀ part ∈ TryPart.all, entries.entry part ≠ some (entries.target part))
    (hleads : ∀ part ∈ TryPart.all, ∀ key ∈ entries.region edges part,
      canReach key (entries.target part) edges = true)
    (hdisjoint : ∀ part ∈ TryPart.all, ∀ other ∈ TryPart.all, ∀ key ∈ entries.region edges part,
      key ∈ entries.region edges other → part = other)
    (hnested : ∀ other ∈ steps, other.type = .tryCatch → other.key ≠ step.key →
      ∀ part ∈ TryPart.all, other.key ∉ entries.region edges part)
    (hentered : ∀ edge ∈ edges, ∀ part ∈ TryPart.all, ∀ a ∈ edge.from?.toList,
      ∀ b ∈ edge.to?.toList, b ∈ entries.region edges part → a ∉ entries.region edges part →
      isStructured step edges entries part edge a b = true) :
    WellStructured step steps edges entries where
  body := hbody
  caught := hcaught
  done := hdone
  finalized := hfinally
  connections := by
    intro edge hedge
    obtain ⟨kind, hkind, heq⟩ := List.mem_map.mp (hconnections edge hedge)
    exact ⟨kind, heq.symm, hkind⟩
  targets := htargets
  inside := by
    rintro part start hstart rfl
    exact hinside part (TryPart.mem_all part) hstart
  exits := by
    intro part start hstart p hp hmaximal
    refine hp.mem_of_leads (fun x hx => ?_) hmaximal
    exact canReach_iff.mp (hleads part (TryPart.mem_all part) x
      (mem_region_iff.mpr ⟨start, hstart, hx⟩))
  disjoint := by
    intro part other key hpart hother
    exact hdisjoint part (TryPart.mem_all part) other (TryPart.mem_all other) key
      (mem_region_iff.mpr hpart) (mem_region_iff.mpr hother)
  nested := by
    intro other hother htype hne part hin
    exact hnested other hother htype hne part (TryPart.mem_all part) (mem_region_iff.mpr hin)
  entered := by
    intro edge hedge a b hfrom hto part hin hout
    have h := hentered edge hedge part (TryPart.mem_all part) a (Option.mem_toList.mpr hfrom) b
      (Option.mem_toList.mpr hto) (mem_region_iff.mpr hin)
      (fun hmem => hout (mem_region_iff.mp hmem))
    rwa [isStructured, Bool.or_eq_true, decide_eq_true_eq, decide_eq_true_eq, mem_region_iff,
      mem_region_iff] at h

section

variable (h : WellStructured step steps edges entries)
include h

/-- With a Finally, Body and Catch do not start at Done: there would be a way from Done to Finally
and back. -/
lemma WellStructured.entry_ne_done (hac : Acyclic (succ edges)) {finallyEntry : String}
    (hfinally : entries.finallyEntry = some finallyEntry) (part : TryPart)
    (hstart : entries.entry part = some start) (htarget : entries.target part = finallyEntry) :
    start ≠ entries.done := by
  rintro rfl
  have hforth := h.leads hac (h.entry_inRegion part hstart)
  have hback := h.leads hac (h.entry_inRegion .finalized hfinally)
  rw [htarget] at hforth
  rcases Relation.reflTransGen_iff_eq_or_transGen.mp hforth with heq | hplus
  · exact h.inside .finalized finallyEntry hfinally heq
  · exact hac _ (hplus.trans_left hback)

/-- The entries and Done are distinct. -/
lemma WellStructured.distinct (hac : Acyclic (succ edges)) {finallyEntry : String}
    (hfinally : entries.finallyEntry = some finallyEntry) :
    ([entries.bodyEntry, entries.catchEntry] ++ entries.finallyEntry.toList ++
      [entries.done]).Nodup := by
  have hboundary : entries.boundary = finallyEntry := by simp [TryEntries.boundary, hfinally]
  have hbody : entries.bodyEntry ≠ finallyEntry := hboundary ▸ h.inside .body _ rfl
  have hcatch : entries.catchEntry ≠ finallyEntry := hboundary ▸ h.inside .caught _ rfl
  have hends : finallyEntry ≠ entries.done := h.inside .finalized _ hfinally
  have hbodyDone := h.entry_ne_done hac hfinally .body rfl hboundary
  have hcatchDone := h.entry_ne_done hac hfinally .caught rfl hboundary
  have hapart : entries.bodyEntry ≠ entries.catchEntry := by
    intro heq
    have hin : InRegion edges entries .caught entries.catchEntry := h.entry_inRegion .caught rfl
    cases h.disjoint .body .caught _ (h.entry_inRegion .body rfl) (heq ▸ hin)
  simp [hfinally, hbody, hcatch, hends, hbodyDone, hcatchDone, hapart]

/-- Nothing is reported inside a region. -/
lemma WellStructured.tryPartIssues_eq_nil (hac : Acyclic (succ edges))
    (hstart : entries.entry part = some start) :
    tryPartIssues js step steps edges entries part = [] := by
  have hmem : start ∈ entries.region edges part := mem_region_iff.mpr (h.entry_inRegion part hstart)
  simp only [tryPartIssues, List.append_eq_nil_iff, List.flatMap_eq_nil_iff, issueIf_eq_nil]
  refine ⟨by simpa using List.ne_nil_of_mem hmem, fun key hkey => ⟨⟨?_, ?_⟩, ?_⟩⟩
  · rw [decide_eq_false_iff_not, typeOf?, Option.map_eq_some_iff]
    rintro ⟨other, hfind, htype⟩
    have hother : other.key = key := by simpa using List.find?_some hfind
    have hin : InRegion edges entries part other.key := hother ▸ mem_region_iff.mp hkey
    by_cases hself : other.key = step.key
    · exact h.step_notInRegion hac part (hself ▸ hin)
    · exact h.nested other (List.mem_of_find?_eq_some hfind) htype hself part hin
  · rw [Bool.not_eq_false', canReach_iff]
    exact h.leads hac (mem_region_iff.mp hkey)
  · rw [escapeIssues, List.flatMap_eq_nil_iff]
    intro edge hedge
    obtain ⟨hmem, hfrom⟩ := List.mem_filter.mp hedge
    cases hto : edge.to? with
    | none => rfl
    | some target =>
      obtain ⟨start, hstart, hreach⟩ := mem_region_iff.mp hkey
      have hstep : Edge (succ edges) key target :=
        edge_iff.mpr ⟨edge, hmem, by simpa using hfrom, hto⟩
      by_cases hend : target = entries.target part
      · simp [hend]
      · have hin : target ∈ entries.region edges part :=
          mem_region_iff.mpr ⟨start, hstart, hreach.tail hstep hend⟩
        simp [hin]

/-- No step lies in two regions. -/
lemma WellStructured.tryOverlapIssues_eq_nil : tryOverlapIssues edges entries = [] := by
  rw [tryOverlapIssues, List.flatMap_eq_nil_iff]
  intro key _
  rw [issueIf_eq_nil, decide_eq_false_iff_not, not_lt]
  by_cases hin : ∃ part, InRegion edges entries part key
  · obtain ⟨part, hpart⟩ := hin
    calc TryPart.all.countP (fun other => decide (key ∈ entries.region edges other))
        ≤ TryPart.all.countP (fun other => decide (other = part)) := by
          refine List.countP_mono_left fun other _ hother => ?_
          rw [decide_eq_true_eq, mem_region_iff] at hother
          simpa using h.disjoint other part key hother hpart
      _ ≤ 1 := by cases part <;> decide
  · have hnone :
        TryPart.all.countP (fun other => decide (key ∈ entries.region edges other)) = 0 := by
      rw [List.countP_eq_zero]
      intro other _ hother
      rw [decide_eq_true_eq, mem_region_iff] at hother
      exact hin ⟨other, hother⟩
    omega

/-- Every edge into a region belongs to the block. -/
lemma WellStructured.tryEntryIssues_eq_nil : tryEntryIssues js step edges entries = [] := by
  rw [tryEntryIssues, List.flatMap_eq_nil_iff]
  intro edge hedge
  split
  · rename_i a b hfrom hto
    rw [List.flatMap_eq_nil_iff]
    intro part _
    split
    · rfl
    · rename_i entry hentry
      rw [issueIf_eq_nil]
      by_contra hreported
      simp only [Bool.not_eq_false, Bool.and_eq_true, decide_eq_true_eq,
        mem_region_iff] at hreported
      obtain ⟨⟨⟨hin, hout⟩, hstructured⟩, hconverges⟩ := hreported
      rcases h.entered edge hedge a b hfrom hto part hin hout with
        ⟨rfl, hb, hkind⟩ | ⟨rfl, hb, hguarded⟩
      · obtain rfl : entry = b := Option.some.inj (hentry.symm.trans hb)
        simp [hkind] at hstructured
      · obtain rfl : entry = b := Option.some.inj (hentry.symm.trans hb)
        simp only [hb, mem_region_iff, decide_true, Bool.true_and, Bool.not_eq_true',
          Bool.or_eq_false_iff, decide_eq_false_iff_not] at hconverges
        exact hguarded.elim hconverges.1 hconverges.2
  · rfl

/-- Nothing is reported of the connections. -/
lemma WellStructured.edgeKindIssues_eq_nil :
    edgeKindIssues js "invalid_try_edge"
      "TRY_CATCH may only use Body, Catch, Finally and Done edges."
      [.tryBody, .tryCatch, .tryFinally, .tryDone] step edges = [] := by
  rw [edgeKindIssues, List.flatMap_eq_nil_iff]
  intro edge hedge
  obtain ⟨kind, hkind, hmem⟩ := h.connections edge hedge
  simp only [hkind, issueIf_eq_nil, Option.any_some, decide_eq_true hmem, Bool.not_true]

end

lemma mem_of_firstTarget {stepKeys : List String}
    (hvalid : ∀ edge ∈ edges, isValidEdge stepKeys edge = true) {stepKey target : String}
    {kind : EdgeKind} (h : firstTarget stepKey kind edges = some target) : target ∈ stepKeys := by
  obtain ⟨edge, hedge, -, hto⟩ := edge_iff.mp (edge_of_firstTarget h)
  have hedge := hvalid edge hedge
  simp only [isValidEdge, hto, Option.any_some, Bool.and_eq_true, decide_eq_true_eq] at hedge
  exact hedge.1.2

lemma firstTarget_of_tryEntries (h : tryEntries? step.key edges = some entries) :
    firstTarget step.key .tryBody edges = some entries.bodyEntry ∧
      firstTarget step.key .tryCatch edges = some entries.catchEntry ∧
      firstTarget step.key .tryDone edges = some entries.done := by
  rw [tryEntries?] at h
  split at h
  · rename_i hbody hcatch hdone
    cases h
    exact ⟨hbody, hcatch, hdone⟩
  · cases h

/-- What is left of the validation of a well-structured block. -/
lemma WellStructured.validateTryCatch_eq (h : WellStructured step steps edges entries)
    (hvalid : ∀ edge ∈ edges, isValidEdge (steps.map (·.key)) edge = true) :
    validateTryCatch js step steps (steps.map (·.key)) edges =
      if ¬ ([entries.bodyEntry, entries.catchEntry] ++ entries.finallyEntry.toList ++
          [entries.done]).Nodup then
        [issue "try_region_overlap" "TRY_CATCH region entries and Done must be distinct." step.key]
      else tryRegionIssues js step steps edges entries := by
  obtain ⟨hbody, hcatch, hdone⟩ := firstTarget_of_tryEntries h.targets
  have hkeys : ¬ (entries.bodyEntry ∉ steps.map (·.key) ∨ entries.catchEntry ∉ steps.map (·.key) ∨
      entries.done ∉ steps.map (·.key)) := by
    simp only [mem_of_firstTarget hvalid hbody, mem_of_firstTarget hvalid hcatch,
      mem_of_firstTarget hvalid hdone, not_true_eq_false, or_self, not_false_eq_true]
  have hfinally : ¬ 1 < (outgoingOfKind step.key .tryFinally edges).length := by
    have := h.finalized
    omega
  rw [validateTryCatch, h.edgeKindIssues_eq_nil, h.targets]
  simp only [tryConnectionIssues, h.body, h.caught, h.done, hfinally, ne_eq, not_true_eq_false,
    decide_false, Bool.and_false, Bool.not_true, Bool.false_and, Bool.or_false, issueIf,
    Bool.false_eq_true, if_false, List.nil_append, if_neg hkeys]

end Block

/-- **A well-structured try block is accepted if and only if it has a Finally.**  In an acyclic
graph whose edges join steps, the validation of a well-structured TRY_CATCH step reports nothing if
there is a connection to Finally, and something if there is none. -/
theorem validateTryCatch_iff_finally (js : JsLib) (step : GraphStepLike)
    (steps : List GraphStepLike) (edges : List GraphEdgeLike) (entries : TryEntries)
    (hvalid : ∀ edge ∈ edges, isValidEdge (steps.map (·.key)) edge = true)
    (hac : Acyclic (succ edges)) (h : WellStructured step steps edges entries) :
    validateTryCatch js step steps (steps.map (·.key)) edges = [] ↔
      entries.finallyEntry.isSome = true := by
  rw [h.validateTryCatch_eq hvalid]
  constructor
  · intro hnone
    split_ifs at hnone with hdistinct
    obtain ⟨start, hstart⟩ := exists_start_of_tryRegionIssues hnone .finalized
    exact Option.isSome_iff_exists.mpr ⟨start, hstart⟩
  · intro hsome
    obtain ⟨finallyEntry, hfinally⟩ := Option.isSome_iff_exists.mp hsome
    rw [if_neg (not_not.mpr (h.distinct hac hfinally)), tryRegionIssues,
      h.tryOverlapIssues_eq_nil, h.tryEntryIssues_eq_nil, List.append_nil, List.append_nil,
      List.flatMap_eq_nil_iff]
    intro part _
    cases part with
    | body => exact h.tryPartIssues_eq_nil hac rfl
    | caught => exact h.tryPartIssues_eq_nil hac rfl
    | finalized => exact h.tryPartIssues_eq_nil hac hfinally

/-! ## A block with and without Finally -/

/-- An edge of a trial block. -/
def blockEdge (source target : String) (kind : EdgeKind) : GraphEdgeLike :=
  ⟨some (.str source), some (.str target), some (.str kind.name), none⟩

/-- A guarded step and its rescue. -/
def blockSteps : List GraphStepLike :=
  [⟨none, "guard", .tryCatch, .obj []⟩, ⟨none, "attempt", .httpRequest, .obj []⟩,
    ⟨none, "rescue", .transform, .obj []⟩, ⟨none, "cleanup", .transform, .obj []⟩,
    ⟨none, "end", .transform, .obj []⟩]

/-- The block with a Finally. -/
def blockWithFinally : List GraphEdgeLike :=
  [blockEdge "guard" "attempt" .tryBody, blockEdge "guard" "rescue" .tryCatch,
    blockEdge "guard" "cleanup" .tryFinally, blockEdge "guard" "end" .tryDone,
    blockEdge "attempt" "cleanup" .next, blockEdge "rescue" "cleanup" .next,
    blockEdge "cleanup" "end" .next]

/-- The block without one: the cleanup comes after it. -/
def blockWithoutFinally : List GraphEdgeLike :=
  [blockEdge "guard" "attempt" .tryBody, blockEdge "guard" "rescue" .tryCatch,
    blockEdge "guard" "cleanup" .tryDone, blockEdge "attempt" "cleanup" .next,
    blockEdge "rescue" "cleanup" .next, blockEdge "cleanup" "end" .next]

/-- The try step. -/
def guardStep : GraphStepLike := ⟨none, "guard", .tryCatch, .obj []⟩

lemma wellStructured_blockWithFinally :
    WellStructured guardStep blockSteps blockWithFinally
      ⟨"attempt", "rescue", some "cleanup", "end"⟩ := by
  apply WellStructured.of_regions <;> decide +kernel

lemma wellStructured_blockWithoutFinally :
    WellStructured guardStep blockSteps blockWithoutFinally
      ⟨"attempt", "rescue", none, "cleanup"⟩ := by
  apply WellStructured.of_regions <;> decide +kernel

/-- The edges of both blocks join steps, and there is no cycle. -/
lemma acyclic_of_block {edges : List GraphEdgeLike}
    (hvalid : ∀ edge ∈ edges, isValidEdge (blockSteps.map (·.key)) edge = true)
    (h : acyclicIssues (blockSteps.map (·.key)) edges = []) : Acyclic (succ edges) := by
  refine acyclic_of_acyclicIssues (fun edge hedge a ha => ?_) h
  have hedge := hvalid edge hedge
  simp only [isValidEdge, ha, Option.any_some, Bool.and_eq_true, decide_eq_true_eq] at hedge
  exact hedge.1.1

/-- The block with a Finally is accepted. -/
theorem validateTryCatch_iff_finally_of_block :
    validateTryCatch JsLib.integers guardStep blockSteps (blockSteps.map (·.key))
      blockWithFinally = [] := by
  have hvalid : ∀ edge ∈ blockWithFinally,
      isValidEdge (blockSteps.map (·.key)) edge = true := by decide +kernel
  exact (validateTryCatch_iff_finally JsLib.integers guardStep blockSteps blockWithFinally _ hvalid
    (acyclic_of_block hvalid (by decide +kernel)) wellStructured_blockWithFinally).mpr rfl

/-- The block without one is well structured, and its missing Finally is reported as empty. -/
theorem block_without_finally_rejected :
    WellStructured guardStep blockSteps blockWithoutFinally
        ⟨"attempt", "rescue", none, "cleanup"⟩ ∧
      Acyclic (succ blockWithoutFinally) ∧
      reachableIssues "guard" (blockSteps.map (·.key)) blockWithoutFinally = [] ∧
      validateTryCatch JsLib.integers guardStep blockSteps (blockSteps.map (·.key))
          blockWithoutFinally =
        [issue "empty_try_finally" "TRY_CATCH Finally must contain at least one step."
          (some "guard") none (some "finally")] := by
  have hvalid : ∀ edge ∈ blockWithoutFinally,
      isValidEdge (blockSteps.map (·.key)) edge = true := by decide +kernel
  refine ⟨wellStructured_blockWithoutFinally, acyclic_of_block hvalid (by decide +kernel),
    by decide +kernel, by decide +kernel⟩

end Flowmind.Validation
