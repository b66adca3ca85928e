import Flowmind.Graph.Validation
import Flowmind.Traversal.Region

/-!
# The regions of loops and try steps

The body of a FOR_EACH step and the Body, Catch and Finally of a TRY_CATCH step are regions of the
graph: the executors run them apart and rely on knowing where they end.  `forEachRegions` and
`tryCatchRegions` compute them, and the validation checks them edge by edge.

* `forEach_regionChecked`, `tryPart_regionChecked` — what those checks establish, region by region.
* `validated_regions_singleEntrySingleExit` — **in an accepted definition every region is entered
  through its owner only and left through its boundary only.**
* `availableStepKeys` — the steps that come before a step (`graphAvailableStepKeys`), without those
  of regions that it is not in.
-/

namespace Flowmind

open Traversal

/-- The body of a loop. -/
structure ForEachRegion where
  loopStepKey : String
  bodyEntryStepKey : String
  doneStepKey : String
  bodyStepKeys : List String

/-- The three regions of a try step. -/
structure TryCatchRegion where
  tryStepKey : String
  bodyEntryStepKey : String
  catchEntryStepKey : String
  finallyEntryStepKey : Option String
  doneStepKey : String
  bodyStepKeys : List String
  catchStepKeys : List String
  finallyStepKeys : List String

open Validation in
def forEachRegions (steps : List GraphStepLike) (graph : Option Json) : List ForEachRegion :=
  let edges := normalizedEdges graph
  (steps.filter fun step => decide (step.type = .forEach)).flatMap fun step =>
    match firstTarget step.key .forEachBody edges, firstTarget step.key .forEachDone edges with
    | some bodyEntry, some done =>
      if bodyEntry = done then []
      else [⟨step.key, bodyEntry, done, descendantsUntil bodyEntry done edges⟩]
    | _, _ => []

open Validation in
/-- The regions of the try step with the given key and entries. -/
def tryCatchRegion (edges : List GraphEdgeLike) (stepKey : String) (entries : TryEntries) :
    TryCatchRegion where
  tryStepKey := stepKey
  bodyEntryStepKey := entries.bodyEntry
  catchEntryStepKey := entries.catchEntry
  finallyEntryStepKey := entries.finallyEntry
  doneStepKey := entries.done
  bodyStepKeys := entries.region edges .body
  catchStepKeys := entries.region edges .caught
  finallyStepKeys := entries.region edges .finalized

open Validation in
def tryCatchRegions (steps : List GraphStepLike) (graph : Option Json) : List TryCatchRegion :=
  let edges := normalizedEdges graph
  (steps.filter fun step => decide (step.type = .tryCatch)).flatMap fun step =>
    ((tryEntries? step.key edges).map (tryCatchRegion edges step.key)).toList

/-- Where Body and Catch of a try step end. -/
def TryCatchRegion.boundary (region : TryCatchRegion) : String :=
  region.finallyEntryStepKey.getD region.doneStepKey

open Validation in
lemma mem_forEachRegions_iff {steps : List GraphStepLike} {graph : Option Json}
    {region : ForEachRegion} : region ∈ forEachRegions steps graph ↔
      ∃ step ∈ steps, step.type = .forEach ∧ ∃ bodyEntry done,
        firstTarget step.key .forEachBody (normalizedEdges graph) = some bodyEntry ∧
        firstTarget step.key .forEachDone (normalizedEdges graph) = some done ∧ bodyEntry ≠ done ∧
        region = ⟨step.key, bodyEntry, done,
          descendantsUntil bodyEntry done (normalizedEdges graph)⟩ := by
  simp only [forEachRegions, List.mem_flatMap, List.mem_filter, decide_eq_true_eq, and_assoc]
  refine exists_congr fun step => and_congr_right fun _ => and_congr_right fun _ => ?_
  cases hbody : firstTarget step.key .forEachBody (normalizedEdges graph) with
  | none => simp
  | some bodyEntry =>
    cases hdone : firstTarget step.key .forEachDone (normalizedEdges graph) with
    | none => simp
    | some done => simp

open Validation in
lemma mem_tryCatchRegions_iff {steps : List GraphStepLike} {graph : Option Json}
    {region : TryCatchRegion} : region ∈ tryCatchRegions steps graph ↔
      ∃ step ∈ steps, step.type = .tryCatch ∧ ∃ entries,
        tryEntries? step.key (normalizedEdges graph) = some entries ∧
        tryCatchRegion (normalizedEdges graph) step.key entries = region := by
  simp [tryCatchRegions, and_assoc]

namespace Validation

variable {js : JsLib} {steps : List GraphStepLike} {graph : Option Json} {entry : String}

/-! ## Edges of a kind -/

variable {stepKey : String} {kind : EdgeKind} {edges : List GraphEdgeLike}

lemma mem_outgoingOfKind {edge : GraphEdgeLike} : edge ∈ outgoingOfKind stepKey kind edges ↔
      edge ∈ edges ∧ edge.from? = some stepKey ∧ edge.kind? = some kind := by
  simp only [outgoingOfKind, outgoingEdges, List.mem_filter, decide_eq_true_eq, and_assoc]

/-- The first target of a kind is the target of an edge. -/
lemma edge_of_firstTarget {target : String} (h : firstTarget stepKey kind edges = some target) :
    Edge (succ edges) stepKey target := by
  obtain ⟨edge, hhead, hto⟩ := Option.bind_eq_some_iff.mp h
  obtain ⟨hedge, hfrom, _⟩ := mem_outgoingOfKind.mp (List.mem_of_mem_head? hhead)
  exact edge_iff.mpr ⟨edge, hedge, hfrom, hto⟩

/-- In an accepted definition an existing edge of a kind has a target, and it is a step. -/
lemma Accepted.firstTarget_of_length (h : Accepted js steps graph entry)
    (hlen : (outgoingOfKind stepKey kind (normalizedEdges graph)).length = 1) :
    ∃ edge target, outgoingOfKind stepKey kind (normalizedEdges graph) = [edge] ∧
      edge.to? = some target ∧ target ∈ steps.map (·.key) ∧
      firstTarget stepKey kind (normalizedEdges graph) = some target := by
  obtain ⟨edge, hedge⟩ := List.length_eq_one_iff.mp hlen
  have hmem : edge ∈ outgoingOfKind stepKey kind (normalizedEdges graph) := by simp [hedge]
  obtain ⟨target, hto, htarget⟩ := h.to_mem edge (mem_outgoingOfKind.mp hmem).1
  exact ⟨edge, target, hedge, hto, htarget, by simp [firstTarget, hedge, hto]⟩

/-! ## Loops -/

variable {step : GraphStepLike}

/-- The checks of a loop body, as conditions on its region. -/
lemma regionChecked_of_forEachBodyIssues {bodyEntry done : String}
    (hedge : Edge (succ edges) step.key bodyEntry)
    (h : forEachBodyIssues js step steps edges bodyEntry done = []) :
    RegionChecked (succ edges) step.key bodyEntry done (descendantsUntil bodyEntry done edges)
      fun _ => False := by
  simp only [forEachBodyIssues, List.append_eq_nil_iff, List.flatMap_eq_nil_iff] at h
  obtain ⟨⟨_, hbody⟩, hentered⟩ := h
  refine ⟨fun x => mem_descendantsUntil_iff, fun x hx => ?_, fun a b hab hb ha => ?_, hedge⟩
  · exact canReach_iff.mp (by simpa using (hbody x hx).1.2)
  · obtain ⟨edge, hmem, hfrom, hto⟩ := edge_iff.mp hab
    have hnone := hentered edge hmem
    simp only [hfrom, hto, issueIf_eq_nil, hb, ha, decide_true, not_false_eq_true, Bool.true_and,
      Bool.not_eq_false', Bool.and_eq_true, decide_eq_true_eq] at hnone
    exact Or.inl hnone.1.1

/-- **Every loop of an accepted definition has a checked body.** -/
lemma forEach_regionChecked (h : Accepted js steps graph entry) (hstep : step ∈ steps)
    (htype : step.type = .forEach) :
    ∃ bodyEntry done,
      firstTarget step.key .forEachBody (normalizedEdges graph) = some bodyEntry ∧
      firstTarget step.key .forEachDone (normalizedEdges graph) = some done ∧ bodyEntry ≠ done ∧
      RegionChecked (succ (normalizedEdges graph)) step.key bodyEntry done
        (descendantsUntil bodyEntry done (normalizedEdges graph)) fun _ => False := by
  have hissues := h.step step hstep
  simp only [stepIssues, htype, List.append_nil] at hissues
  simp only [validateForEach, List.append_eq_nil_iff, issueIf_eq_nil, decide_eq_false_iff_not,
    not_not] at hissues
  obtain ⟨⟨⟨⟨hbody, hdone⟩, _⟩, _⟩, hregion⟩ := hissues
  obtain ⟨bodyEdge, bodyEntry, hbodyEq, hbodyTo, hbodyMem, hbodyFirst⟩ :=
    h.firstTarget_of_length hbody
  obtain ⟨doneEdge, done, hdoneEq, hdoneTo, hdoneMem, hdoneFirst⟩ := h.firstTarget_of_length hdone
  simp only [hbodyEq, hdoneEq, hbodyTo, hdoneTo, hbodyMem, hdoneMem, not_true_eq_false, or_self,
    if_false] at hregion
  split at hregion
  · exact absurd hregion (by simp)
  · rename_i hne
    exact ⟨bodyEntry, done, hbodyFirst, hdoneFirst, hne,
      regionChecked_of_forEachBodyIssues (edge_of_firstTarget hbodyFirst) hregion⟩

/-! ## Try steps -/

/-- The nodes from which Finally may be entered besides the try step: those of Body and Catch. -/
def guardedOf (entries : TryEntries) (edges : List GraphEdgeLike) : TryPart → String → Prop
  | .finalized, a => a ∈ entries.region edges .body ∨ a ∈ entries.region edges .caught
  | _, _ => False

variable {entries : TryEntries} {part : TryPart} {start : String}

section

variable
  (hdistinct : ([entries.bodyEntry, entries.catchEntry] ++ entries.finallyEntry.toList ++
    [entries.done]).Nodup)
  (hstart : entries.entry part = some start)
include hdistinct hstart

/-- Only Finally is entered at the start of Finally. -/
lemma eq_finalized_of_entry (hfinally : some start = entries.finallyEntry) : part = .finalized := by
  rw [← hfinally] at hdistinct
  simp only [Option.toList_some, List.cons_append, List.nil_append, List.nodup_cons, List.mem_cons,
    not_or] at hdistinct
  cases part with
  | body => exact absurd (Option.some.inj hstart) hdistinct.1.2.1
  | caught => exact absurd (Option.some.inj hstart) hdistinct.2.1.1
  | finalized => rfl

/-- The checks of a try step, as conditions on one of its regions. -/
lemma regionChecked_of_tryRegionIssues (hedge : Edge (succ edges) step.key start)
    (h : tryRegionIssues js step steps edges entries = []) :
    RegionChecked (succ edges) step.key start (entries.target part) (entries.region edges part)
      (guardedOf entries edges part) := by
  simp only [tryRegionIssues, List.append_eq_nil_iff, List.flatMap_eq_nil_iff] at h
  obtain ⟨⟨hinside, _⟩, hentered⟩ := h
  have hpart : part ∈ TryPart.all := by cases part <;> simp [TryPart.all]
  have hregion : entries.region edges part = descendantsUntil start (entries.target part) edges := by
    simp [TryEntries.region, hstart]
  have hkeys := hinside part hpart
  simp only [tryPartIssues, List.append_eq_nil_iff, List.flatMap_eq_nil_iff] at hkeys
  refine ⟨fun x => hregion ▸ mem_descendantsUntil_iff, fun x hx => ?_, fun a b hab hb ha => ?_,
    hedge⟩
  · exact canReach_iff.mp (by simpa using (hkeys.2 x hx).1.2)
  · obtain ⟨edge, hmem, hfrom, hto⟩ := edge_iff.mp hab
    have hnone := List.flatMap_eq_nil_iff.mp hentered edge hmem
    simp only [hfrom, hto, List.flatMap_eq_nil_iff] at hnone
    have hentry := hnone part hpart
    simp only [hstart, issueIf_eq_nil, hb, ha, decide_true, not_false_eq_true, Bool.true_and,
      Bool.and_eq_false_iff, Bool.not_eq_false', Bool.and_eq_true, Bool.or_eq_true,
      decide_eq_true_eq] at hentry
    rcases hentry with howner | hconverge
    · exact Or.inl howner.1.1
    · -- An edge into the start of Finally that does not come from the try step itself.
      rw [eq_finalized_of_entry hdistinct hstart hconverge.1.1]
      exact Or.inr hconverge.2

end

/-- A region without a start would be empty, which is reported. -/
lemma exists_start_of_tryRegionIssues (h : tryRegionIssues js step steps edges entries = [])
    (part : TryPart) : ∃ start, entries.entry part = some start := by
  simp only [tryRegionIssues, List.append_eq_nil_iff, List.flatMap_eq_nil_iff] at h
  have hinside := h.1.1 part (by cases part <;> simp [TryPart.all])
  cases hentry : entries.entry part with
  | none => simp [tryPartIssues, TryEntries.region, hentry] at hinside
  | some start => exact ⟨start, rfl⟩

/-- A region starts at the target of an edge of the try step. -/
lemma edge_of_tryEntries (h : tryEntries? stepKey edges = some entries)
    (hstart : entries.entry part = some start) : Edge (succ edges) stepKey start := by
  unfold tryEntries? at h
  split at h
  · rename_i hbody hcatch _
    cases h
    cases part with
    | body => exact edge_of_firstTarget (hbody.trans hstart)
    | caught => exact edge_of_firstTarget (hcatch.trans hstart)
    | finalized => exact edge_of_firstTarget hstart
  · exact absurd h (by simp)

section

variable (h : Accepted js steps graph entry) (hstep : step ∈ steps)
include h hstep

/-- **Every try step of an accepted definition has three checked regions.** -/
lemma tryPart_regionChecked (htype : step.type = .tryCatch) :
    ∃ entries, tryEntries? step.key (normalizedEdges graph) = some entries ∧
      ∀ part, ∃ start, entries.entry part = some start ∧
        RegionChecked (succ (normalizedEdges graph)) step.key start (entries.target part)
          (entries.region (normalizedEdges graph) part)
          (guardedOf entries (normalizedEdges graph) part) := by
  have hissues := h.step step hstep
  simp only [stepIssues, htype, List.append_nil] at hissues
  simp only [validateTryCatch, tryConnectionIssues, List.append_eq_nil_iff, issueIf_eq_nil,
    Bool.true_and, Bool.not_true, Bool.false_and, Bool.or_false, decide_eq_false_iff_not,
    not_not] at hissues
  obtain ⟨⟨⟨⟨⟨hbody, hcatch⟩, _⟩, hdone⟩, _⟩, hregion⟩ := hissues
  obtain ⟨_, bodyEntry, _, _, hbodyMem, hbodyFirst⟩ := h.firstTarget_of_length hbody
  obtain ⟨_, catchEntry, _, _, hcatchMem, hcatchFirst⟩ := h.firstTarget_of_length hcatch
  obtain ⟨_, done, _, _, hdoneMem, hdoneFirst⟩ := h.firstTarget_of_length hdone
  have hentries : tryEntries? step.key (normalizedEdges graph) = some
      { bodyEntry, catchEntry, done
        finallyEntry := firstTarget step.key .tryFinally (normalizedEdges graph) } := by
    simp [tryEntries?, hbodyFirst, hcatchFirst, hdoneFirst]
  rw [hentries] at hregion
  simp only [hbodyMem, hcatchMem, hdoneMem, not_true_eq_false, or_self, if_false] at hregion
  split at hregion
  · exact absurd hregion (by simp)
  rename_i hdistinct
  refine ⟨_, hentries, fun part => ?_⟩
  obtain ⟨start, hstart⟩ := exists_start_of_tryRegionIssues hregion part
  exact ⟨start, hstart, regionChecked_of_tryRegionIssues (not_not.mp hdistinct) hstart
    (edge_of_tryEntries hentries hstart) hregion⟩

/-! ## The regions are closed off -/

/-- A checked region of a step of an accepted definition is closed off. -/
lemma Accepted.singleEntrySingleExit {boundary : String} {keys : List String}
    {guarded : String → Prop}
    (hchecked : RegionChecked (succ (normalizedEdges graph)) step.key start boundary keys guarded)
    (hguarded : ∀ a, guarded a → ¬ ReachOff (succ (normalizedEdges graph)) (· = step.key) entry a) :
    SingleEntrySingleExit (succ (normalizedEdges graph)) entry step.key start boundary keys :=
  hchecked.singleEntrySingleExit h.acyclic (closedUnder_nodesFrom (normalizedEdges graph) start)
    List.mem_cons_self (h.reach hstep) hguarded

/-- The three regions of a try step are closed off: Finally is entered from Body and Catch as well,
but those are entered through the try step. -/
lemma Accepted.tryPart_singleEntrySingleExit (htype : step.type = .tryCatch) :
    ∃ entries, tryEntries? step.key (normalizedEdges graph) = some entries ∧
      ∀ part, ∃ start, entries.entry part = some start ∧
        SingleEntrySingleExit (succ (normalizedEdges graph)) entry step.key start
          (entries.target part) (entries.region (normalizedEdges graph) part) := by
  obtain ⟨entries, hentries, hparts⟩ := tryPart_regionChecked h hstep htype
  have hdominated : ∀ part, part ≠ .finalized → DominatedBy (succ (normalizedEdges graph)) entry
      step.key (entries.region (normalizedEdges graph) part) := by
    intro part hpart
    obtain ⟨start, _, hchecked⟩ := hparts part
    refine hchecked.dominatedBy h.acyclic (h.reach hstep) fun a ha => ?_
    cases part with
    | body => exact absurd ha id
    | caught => exact absurd ha id
    | finalized => exact absurd rfl hpart
  refine ⟨entries, hentries, fun part => ?_⟩
  obtain ⟨start, hstart, hchecked⟩ := hparts part
  refine ⟨start, hstart, h.singleEntrySingleExit hstep hchecked fun a ha => ?_⟩
  cases part with
  | body => exact absurd ha id
  | caught => exact absurd ha id
  | finalized =>
    rcases ha with ha | ha
    · exact hdominated .body (by simp) a ha
    · exact hdominated .caught (by simp) a ha

end

end Validation

open Validation in
/-- **Loop and try regions have a single entry and a single exit.**  In a definition that the
validation accepts every FOR_EACH step has a body and every TRY_CATCH step a Body, a Catch and a
Finally; a path from the start of such a region stays in it until it meets the boundary, a path that
cannot be continued has met it, and a path from the entry of the graph into the region has passed
through the owning step. -/
theorem validated_regions_singleEntrySingleExit {js : JsLib} {steps : List GraphStepLike}
    {graph : Option Json} (h : validateGraphV2 js steps graph = []) :
    ∃ entry, stringValue (Json.field graph "entryStepKey") = some entry ∧
      (∀ step ∈ steps, step.type = .forEach →
        ∃ region ∈ forEachRegions steps graph, region.loopStepKey = step.key) ∧
      (∀ region ∈ forEachRegions steps graph,
        SingleEntrySingleExit (succ (normalizedEdges graph)) entry region.loopStepKey
          region.bodyEntryStepKey region.doneStepKey region.bodyStepKeys) ∧
      (∀ step ∈ steps, step.type = .tryCatch →
        ∃ region ∈ tryCatchRegions steps graph, region.tryStepKey = step.key) ∧
      (∀ region ∈ tryCatchRegions steps graph,
        SingleEntrySingleExit (succ (normalizedEdges graph)) entry region.tryStepKey
          region.bodyEntryStepKey region.boundary region.bodyStepKeys ∧
        SingleEntrySingleExit (succ (normalizedEdges graph)) entry region.tryStepKey
          region.catchEntryStepKey region.boundary region.catchStepKeys ∧
        ∃ finallyEntry, region.finallyEntryStepKey = some finallyEntry ∧
          SingleEntrySingleExit (succ (normalizedEdges graph)) entry region.tryStepKey
            finallyEntry region.doneStepKey region.finallyStepKeys) := by
  obtain ⟨entry, hacc⟩ := accepted_of_validateGraphV2 h
  refine ⟨entry, hacc.entry_eq, fun step hstep htype => ?_, fun region hregion => ?_,
    fun step hstep htype => ?_, fun region hregion => ?_⟩
  · obtain ⟨bodyEntry, done, hbody, hdone, hne, _⟩ := forEach_regionChecked hacc hstep htype
    exact ⟨_, mem_forEachRegions_iff.mpr
      ⟨step, hstep, htype, bodyEntry, done, hbody, hdone, hne, rfl⟩, rfl⟩
  · obtain ⟨step, hstep, htype, bodyEntry, done, hbody, hdone, _, rfl⟩ :=
      mem_forEachRegions_iff.mp hregion
    obtain ⟨_, _, hbody', hdone', _, hchecked⟩ := forEach_regionChecked hacc hstep htype
    cases hbody.symm.trans hbody'
    cases hdone.symm.trans hdone'
    exact hacc.singleEntrySingleExit hstep hchecked fun _ ha => absurd ha id
  · obtain ⟨entries, hentries, _⟩ := hacc.tryPart_singleEntrySingleExit hstep htype
    exact ⟨_, mem_tryCatchRegions_iff.mpr ⟨step, hstep, htype, entries, hentries, rfl⟩, rfl⟩
  · obtain ⟨step, hstep, htype, entries, hentries, rfl⟩ := mem_tryCatchRegions_iff.mp hregion
    obtain ⟨_, hentries', hparts⟩ := hacc.tryPart_singleEntrySingleExit hstep htype
    cases hentries.symm.trans hentries'
    obtain ⟨_, hbody, hbodyClosed⟩ := hparts .body
    obtain ⟨_, hcatch, hcatchClosed⟩ := hparts .caught
    obtain ⟨_, hfinally, hfinallyClosed⟩ := hparts .finalized
    cases hbody
    cases hcatch
    exact ⟨hbodyClosed, hcatchClosed, _, hfinally, hfinallyClosed⟩

/-! ### A definition with a loop and a try step -/

/-- An edge as it is stored. -/
def storedEdge (source target : String) (kind : EdgeKind) : Json :=
  .obj [("from", .str source), ("to", .str target), ("kind", .str kind.name)]

/-- A loop around one step, followed by a guarded step. -/
def loopThenTrySteps : List GraphStepLike :=
  [⟨none, "each", .forEach, .obj [("source", .str "items")]⟩, ⟨none, "send", .httpRequest, .obj []⟩,
    ⟨none, "guard", .tryCatch, .obj []⟩, ⟨none, "attempt", .httpRequest, .obj []⟩,
    ⟨none, "rescue", .transform, .obj []⟩, ⟨none, "cleanup", .transform, .obj []⟩,
    ⟨none, "end", .transform, .obj []⟩]

def loopThenTryGraph : Json :=
  .obj [("entryStepKey", .str "each"),
    ("edges", .arr
      [storedEdge "each" "send" .forEachBody, storedEdge "each" "guard" .forEachDone,
        storedEdge "send" "guard" .next, storedEdge "guard" "attempt" .tryBody,
        storedEdge "guard" "rescue" .tryCatch, storedEdge "guard" "cleanup" .tryFinally,
        storedEdge "guard" "end" .tryDone, storedEdge "attempt" "cleanup" .next,
        storedEdge "rescue" "cleanup" .next, storedEdge "cleanup" "end" .next])]

/-- The hypothesis of the theorem is met: the definition is accepted, and both its control steps
have their regions. -/
theorem loopThenTry_regions :
    validateGraphV2 JsLib.integers loopThenTrySteps (some loopThenTryGraph) = [] ∧
      (∃ region ∈ forEachRegions loopThenTrySteps (some loopThenTryGraph),
        region.loopStepKey = "each") ∧
      ∃ region ∈ tryCatchRegions loopThenTrySteps (some loopThenTryGraph),
        region.tryStepKey = "guard" := by
  have hvalid : validateGraphV2 JsLib.integers loopThenTrySteps (some loopThenTryGraph) = [] := by
    decide +kernel
  obtain ⟨_, _, hloop, _, htry, _⟩ := validated_regions_singleEntrySingleExit hvalid
  exact ⟨hvalid, hloop ⟨none, "each", .forEach, .obj [("source", .str "items")]⟩
      (by simp [loopThenTrySteps]) rfl,
    htry ⟨none, "guard", .tryCatch, .obj []⟩ (by simp [loopThenTrySteps]) rfl⟩

/-! ## The steps a step may refer to

A definition is saved only if every step that an expression refers to is available where the
expression stands: its step comes after it in the graph, and is not outside a loop, a catch or a
finally region that it is in. -/

open Validation

/-- The steps with an edge to the step: `reverse.get(stepKey) ?? []`. -/
def Validation.pred (edges : List GraphEdgeLike) (stepKey : String) : List String :=
  (edges.filter fun edge => decide (edge.to? = some stepKey)).filterMap (·.from?)

/-- The keys of the steps before a step, in the order of the list. -/
def keysBefore (steps : List GraphStepLike) (stepKey : String) : List String :=
  if stepKey ∈ steps.map (·.key) then (steps.map (·.key)).takeWhile fun key => decide (key ≠ stepKey)
  else []

def graphAvailableStepKeys (currentStepKey : String) (steps : List GraphStepLike)
    (graph : Option Json) : List String :=
  match Json.asArray? (Json.field graph "edges") with
  | none => keysBefore steps currentStepKey
  | some _ =>
    let edges := normalizedEdges graph
    ((pred edges currentStepKey).foldl
      (explore (pred edges) (fun _ => false) (edges.length + 1)) []).filter
        fun key => decide (key ≠ currentStepKey)

/-- The steps that the expressions of a step may refer to, as `validateExpressions` computes them.
-/
def availableStepKeys (steps : List GraphStepLike) (graph : Option Json) (stepKey : String) :
    List String :=
  -- Outside a region its steps are taken away.
  let without (available region : List String) : List String :=
    if stepKey ∈ region then available else available.filter fun key => decide (key ∉ region)
  match graph with
  | none => keysBefore steps stepKey
  | some _ =>
    let outsideLoops := (forEachRegions steps graph).foldl
      (fun available region => without available region.bodyStepKeys)
      (graphAvailableStepKeys stepKey steps graph)
    (tryCatchRegions steps graph).foldl (fun available region =>
      without (without available region.catchStepKeys) region.finallyStepKeys) outsideLoops

end Flowmind
