import Flowmind.Graph.RuntimeGraph
import Flowmind.Graph.StepConfig

/-!
# Validation of a workflow graph

`validateGraphV2`, the check that a definition of schema version 2 passes before it can be saved or
published.  It looks at the steps one by one, at the edges one by one, at the graph as a whole
(cycles, reachability) and, for every control step, at the edges that leave it and at the regions it
controls.  A check returns the issues that it reports, in the order in which the source pushes them.

Edges are read here as they are stored: endpoints and kinds are trimmed (`stringValue`) before they
are compared, which the worker's reading of the same edges does not do.
-/

namespace Flowmind

open Traversal

/-! ## Edges -/

/-- An edge as stored. -/
structure GraphEdgeLike where
  fromValue : Option Json
  toValue : Option Json
  kindValue : Option Json
  caseKeyValue : Option Json

namespace GraphEdgeLike

variable (edge : GraphEdgeLike)

/-- The start, trimmed. -/
def from? : Option String := stringValue edge.fromValue

/-- The target, trimmed. -/
def to? : Option String := stringValue edge.toValue

/-- The kind, if it is one of the known ones. -/
def kind? : Option EdgeKind :=
  (stringValue edge.kindValue).bind EdgeKind.ofName?

/-- The case of a switch edge, trimmed. -/
def case? : Option String := stringValue edge.caseKeyValue

def edgeId (js : JsLib) (edge : GraphEdgeLike) : String :=
  Json.stringOrEmpty js edge.fromValue ++ ":" ++ Json.stringOrEmpty js edge.kindValue ++ ":" ++
    Json.stringOrEmpty js edge.caseKeyValue ++ "->" ++ Json.stringOrEmpty js edge.toValue

/-- `handleForKind`, on the edge's own kind. -/
def handle : String :=
  match edge.kind? with
  | some .ifTrue => "true"
  | some .ifFalse => "false"
  | some .switchDefault => "default"
  | some .switchCase => "case:" ++ edge.case?.getD ""
  | some .forEachBody => "body"
  | some .forEachDone => "done"
  | some .tryBody => "body"
  | some .tryCatch => "catch"
  | some .tryFinally => "finally"
  | some .tryDone => "done"
  | some .approvalApproved => "approved"
  | some .approvalRejected => "rejected"
  | some .approvalExpired => "expired"
  | _ => "next"

end GraphEdgeLike

/-- The edges of a graph.  Where an item is `null` the source throws; here it is an edge without
endpoints, which is reported. -/
def normalizedEdges (graph : Option Json) : List GraphEdgeLike :=
  ((Json.asArray? (Json.field graph "edges")).getD []).map fun edge =>
    { fromValue := edge.get? "from"
      toValue := edge.get? "to"
      kindValue := edge.get? "kind"
      caseKeyValue := edge.get? "caseKey" }

namespace Validation

variable (stepKey : String) (edges : List GraphEdgeLike)

def outgoingEdges : List GraphEdgeLike :=
  edges.filter fun edge => decide (edge.from? = some stepKey)

/-- The targets of the outgoing edges: `adjacencyMap(edges).get(stepKey) ?? []`. -/
def succ (stepKey : String) : List String :=
  (outgoingEdges stepKey edges).filterMap (·.to?)

/-- The outgoing edges of one kind. -/
def outgoingOfKind (kind : EdgeKind) (edges : List GraphEdgeLike) : List GraphEdgeLike :=
  (outgoingEdges stepKey edges).filter fun edge => decide (edge.kind? = some kind)

/-! ## Traversals -/

/-- The keys reached from `start` before `stop`. -/
def descendantsUntil (start stop : String) (edges : List GraphEdgeLike) : List String :=
  explore (succ edges) (fun key => decide (key = stop)) (edges.length + 1) [] start

def canReach (start target : String) (edges : List GraphEdgeLike) : Bool :=
  (search (succ edges) target (edges.length + 1) [] start).1

def acyclicIssues (stepKeys : List String) (edges : List GraphEdgeLike) :
    List GraphValidationIssue :=
  (stepKeys.foldl (cyclesFrom (succ edges) (stepKeys.length + edges.length + 1) []) ([], [])).2.map
    fun key => issue "cycle" "Workflow graph cannot contain cycles." (some key)

def reachableIssues (entryStepKey : String) (stepKeys : List String) (edges : List GraphEdgeLike) :
    List GraphValidationIssue :=
  let seen := explore (succ edges) (fun _ => false) (edges.length + 1) [] entryStepKey
  (stepKeys.filter fun key => decide (key ∉ seen)).map fun key =>
    issue "unreachable" "Step is unreachable from the entry step." (some key)

/-! ## Steps and edges one by one -/

/-- Repeated step ids and keys, given those of the steps before. -/
def duplicateStepIssues : List String → List String → List GraphStepLike → List GraphValidationIssue
  | _, _, [] => []
  | stepIds, stepKeySet, step :: steps =>
    issueIf (decide (step.id.getD "" ∈ stepIds))
      (issue "duplicate_step_id" "Step IDs must be unique." step.key) ++
    issueIf (decide (step.key ∈ stepKeySet))
      (issue "duplicate_step_key" "Step keys must be unique." step.key) ++
    duplicateStepIssues (if step.id.getD "" = "" then stepIds else step.id.getD "" :: stepIds)
      (step.key :: stepKeySet) steps

/-- The start, the target and the kind of the edge are known. -/
def isValidEdge (stepKeys : List String) (edge : GraphEdgeLike) : Bool :=
  edge.from?.any (fun key => decide (key ∈ stepKeys)) &&
    edge.to?.any (fun key => decide (key ∈ stepKeys)) && edge.kind?.isSome

/-- Issues of single edges, given the ids and the outputs of the edges before. -/
def edgeIssues (js : JsLib) (stepKeys : List String) :
    List String → List String → List GraphEdgeLike → List GraphValidationIssue
  | _, _, [] => []
  | seenEdges, handles, edge :: edges =>
    let edgeKey := edge.edgeId js
    let handleKey := edge.from?.getD "" ++ ":" ++ edge.handle
    issueIf (decide (edgeKey ∈ seenEdges))
      (issue "duplicate_edge" "Workflow graph contains a duplicate edge." edge.from? edgeKey
        edge.handle) ++
    if isValidEdge stepKeys edge then
      issueIf (decide (edge.from? = edge.to?))
        (issue "self_loop" "A step cannot connect to itself." edge.from? edgeKey edge.handle) ++
      issueIf (decide (handleKey ∈ handles))
        (issue "duplicate_output" "This output can only connect to one target." edge.from? edgeKey
          edge.handle) ++
      edgeIssues js stepKeys (edgeKey :: seenEdges) (handleKey :: handles) edges
    else
      issue "invalid_edge" "Workflow graph contains an invalid edge." edge.from? edgeKey
          edge.handle ::
        edgeIssues js stepKeys (edgeKey :: seenEdges) handles edges

variable (js : JsLib)

/-- Edges of a step whose kind is not among those its type may use. -/
def edgeKindIssues (code message : String) (kinds : List EdgeKind) (step : GraphStepLike)
    (edges : List GraphEdgeLike) : List GraphValidationIssue :=
  (outgoingEdges step.key edges).flatMap fun edge =>
    issueIf (!edge.kind?.any fun kind => decide (kind ∈ kinds))
      (issue code message step.key (edge.edgeId js) edge.handle)

/-- A configured target has to be an existing other step. -/
def targetIssue (code message : String) (handle : Option String) (step : GraphStepLike)
    (stepKeys : List String) (target : Option String) : List GraphValidationIssue :=
  issueIf (!target.any fun key => decide (key ∈ stepKeys) && decide (key ≠ step.key))
    (issue code message step.key none handle)

/-! ## Branching -/

variable (step : GraphStepLike)

def validateIf (stepKeys : List String) (edges : List GraphEdgeLike) : List GraphValidationIssue :=
  targetIssue "invalid_if_true" "If true branch must reference an existing step." "true" step
    stepKeys (stringValue (step.config.get? "trueStepKey")) ++
  targetIssue "invalid_if_false" "If false branch must reference an existing step." "false" step
    stepKeys (stringValue (step.config.get? "falseStepKey")) ++
  issueIf (outgoingOfKind step.key .ifTrue edges).isEmpty
    (issue "missing_if_true_edge" "If true branch is not connected." step.key none "true") ++
  issueIf (outgoingOfKind step.key .ifFalse edges).isEmpty
    (issue "missing_if_false_edge" "If false branch is not connected." step.key none "false") ++
  edgeKindIssues js "invalid_if_edge" "If steps may only use true or false graph edges."
    [.ifTrue, .ifFalse] step edges

/-- The cases of a switch. -/
def switchCases (config : Json) : List Json := (Json.asArray? (config.get? "cases")).getD []

/-- Issues of the cases, given the keys and the matches of the cases before. -/
def switchCaseIssues (js : JsLib) (step : GraphStepLike) (stepKeys : List String)
    (edges : List GraphEdgeLike) :
    List String → List String → List Json → List GraphValidationIssue
  | _, _, [] => []
  | caseKeys, caseMatches, entry :: entries =>
    let key := stringValue (entry.get? "key")
    let caseMatch := Json.stringOrEmpty js (entry.get? "match")
    let handle := key.map ("case:" ++ ·)
    issueIf (key.all fun key => decide (key ∈ caseKeys))
      (issue "invalid_switch_case_key" "Switch case keys must be unique." step.key) ++
    issueIf (decide (caseMatch ≠ "") && decide (caseMatch ∈ caseMatches))
      (issue "duplicate_switch_case_match" "Switch case match values must be unique." step.key
        none handle) ++
    targetIssue "invalid_switch_case_target" "Switch case target must reference an existing step."
      handle step stepKeys (stringValue (entry.get? "stepKey")) ++
    issueIf (key.any fun key => !(outgoingOfKind step.key .switchCase edges).any fun edge =>
        decide (edge.case? = some key))
      (issue "missing_switch_case_edge"
        ("Switch case \"" ++ key.getD "" ++ "\" is not connected.") step.key none handle) ++
    switchCaseIssues js step stepKeys edges (key.toList ++ caseKeys)
      (if caseMatch = "" then caseMatches else caseMatch :: caseMatches) entries

def validateSwitch (stepKeys : List String) (edges : List GraphEdgeLike) :
    List GraphValidationIssue :=
  let cases := switchCases step.config
  let caseKeys := cases.filterMap fun entry => stringValue (entry.get? "key")
  issueIf cases.isEmpty
    (issue "missing_switch_cases" "Switch must define at least one case." step.key) ++
  switchCaseIssues js step stepKeys edges [] [] cases ++
  targetIssue "invalid_switch_default" "Switch default branch must reference an existing step."
    "default" step stepKeys (stringValue (step.config.get? "defaultStepKey")) ++
  issueIf (outgoingOfKind step.key .switchDefault edges).isEmpty
    (issue "missing_switch_default_edge" "Switch default branch is not connected." step.key none
      "default") ++
  (outgoingEdges step.key edges).flatMap fun edge =>
    issueIf (decide (edge.kind? = some .switchCase) && decide (edge.case?.getD "" ∉ caseKeys))
      (issue "orphan_switch_case_edge" "Switch case edge references a missing case." step.key
        (edge.edgeId js) edge.handle) ++
    issueIf (!edge.kind?.any fun kind => decide (kind ∈ [EdgeKind.switchCase, .switchDefault]))
      (issue "invalid_switch_edge" "Switch steps may only use case or default graph edges."
        step.key (edge.edgeId js) edge.handle)

def validateApproval (edges : List GraphEdgeLike) : List GraphValidationIssue :=
  (match normalizeApprovalConfig js step.config with
    | .error message => [issue "invalid_approval_config" message step.key]
    | .ok _ => []) ++
  [(EdgeKind.approvalApproved, "approved"), (.approvalRejected, "rejected"),
      (.approvalExpired, "expired")].flatMap (fun (kind, handle) =>
    issueIf (decide ((outgoingOfKind step.key kind edges).length ≠ 1))
      (issue ("invalid_approval_" ++ handle)
        ("APPROVAL must have exactly one " ++ handle ++ " connection.") step.key none handle)) ++
  edgeKindIssues js "invalid_approval_edge"
    "APPROVAL may only use Approved, Rejected and Expired edges."
    [.approvalApproved, .approvalRejected, .approvalExpired] step edges

/-! ## Controlled regions -/

variable (steps : List GraphStepLike)

/-- The type of the first step with a key. -/
def typeOf? (key : String) : Option StepType :=
  (steps.find? fun step => decide (step.key = key)).map (·.type)

/-- Edges that leave a region other than to its boundary. -/
def escapeIssues (code message : String) (region : List String) (boundary key : String)
    (edges : List GraphEdgeLike) : List GraphValidationIssue :=
  (outgoingEdges key edges).flatMap fun edge =>
    issueIf (edge.to?.any fun target => decide (target ≠ boundary) && decide (target ∉ region))
      (issue code message (some key) (edge.edgeId js))

/-- The checks of the body of a loop that starts at `bodyEntry` and ends at `done`. -/
def forEachBodyIssues (edges : List GraphEdgeLike) (bodyEntry done : String) :
    List GraphValidationIssue :=
  let body := descendantsUntil bodyEntry done edges
  issueIf body.isEmpty
    (issue "empty_for_each_body" "FOR_EACH Body must contain at least one step before Done."
      step.key none "body") ++
  issueIf (decide (step.key ∈ body))
    (issue "for_each_back_edge" "FOR_EACH Body cannot return to the loop node." step.key) ++
  body.flatMap (fun key =>
    issueIf (decide (typeOf? steps key = some .forEach))
      (issue "nested_for_each" "Nested FOR_EACH loops are not supported." (some key)) ++
    issueIf (!canReach key done edges)
      (issue "for_each_body_escape" "Every FOR_EACH Body path must converge on Done." (some key)) ++
    escapeIssues js "for_each_body_escape" "FOR_EACH Body edges cannot escape the controlled region."
      body done key edges) ++
  edges.flatMap fun edge =>
    match edge.from?, edge.to? with
    | some source, some target =>
      issueIf (decide (target ∈ body) && decide (source ∉ body) &&
          !(decide (source = step.key) && decide (target = bodyEntry) &&
            decide (edge.kind? = some .forEachBody)))
        (issue "for_each_external_entry" "FOR_EACH Body cannot receive external connections."
          (some target) (edge.edgeId js))
    | _, _ => []

def validateForEach (stepKeys : List String) (edges : List GraphEdgeLike) :
    List GraphValidationIssue :=
  let bodyEdges := outgoingOfKind step.key .forEachBody edges
  let doneEdges := outgoingOfKind step.key .forEachDone edges
  issueIf (decide (bodyEdges.length ≠ 1))
    (issue "invalid_for_each_body" "FOR_EACH must have exactly one Body connection." step.key none
      "body") ++
  issueIf (decide (doneEdges.length ≠ 1))
    (issue "invalid_for_each_done" "FOR_EACH must have exactly one Done connection." step.key none
      "done") ++
  edgeKindIssues js "invalid_for_each_edge" "FOR_EACH may only use Body and Done edges."
    [.forEachBody, .forEachDone] step edges ++
  validateForEachConfig js step ++
  match bodyEdges, doneEdges with
  | [bodyEdge], [doneEdge] =>
    match bodyEdge.to?, doneEdge.to? with
    | some bodyEntry, some done =>
      if bodyEntry ∉ stepKeys ∨ done ∉ stepKeys then []
      else if bodyEntry = done then
        [issue "empty_for_each_body" "FOR_EACH Body must contain at least one step before Done."
          step.key none "body"]
      else forEachBodyIssues js step steps edges bodyEntry done
    | _, _ => []
  | _, _ => []

/-- The three regions of a try step. -/
inductive TryPart where
  | body | caught | finalized
deriving DecidableEq, Repr

namespace TryPart

/-- How the source names a region in messages. -/
def label : TryPart → String
  | body => "Body"
  | caught => "Catch"
  | finalized => "Finally"

/-- How the source names a region in codes and handles. -/
def handle : TryPart → String
  | body => "body"
  | caught => "catch"
  | finalized => "finally"

/-- The edge that enters a region. -/
def kind : TryPart → EdgeKind
  | body => .tryBody
  | caught => .tryCatch
  | finalized => .tryFinally

/-- The regions in the order in which they are checked. -/
def all : List TryPart := [body, caught, finalized]

end TryPart

/-- The targets of the edges that leave a try step, and so its regions. -/
structure TryEntries where
  bodyEntry : String
  catchEntry : String
  finallyEntry : Option String
  done : String

namespace TryEntries

variable (entries : TryEntries)

/-- Where Body and Catch end. -/
def boundary : String := entries.finallyEntry.getD entries.done

/-- Where a region starts. -/
def entry : TryPart → Option String
  | .body => some entries.bodyEntry
  | .caught => some entries.catchEntry
  | .finalized => entries.finallyEntry

/-- Where a region ends. -/
def target : TryPart → String
  | .body => entries.boundary
  | .caught => entries.boundary
  | .finalized => entries.done

/-- The keys of a region; a try step without Finally has none there. -/
def region (edges : List GraphEdgeLike) (part : TryPart) : List String :=
  match entries.entry part with
  | some entry => descendantsUntil entry (entries.target part) edges
  | none => []

end TryEntries

/-- `one(kind, label, required)`: the number of connections of one kind. -/
def tryConnectionIssues (edges : List GraphEdgeLike) (kind : EdgeKind) (handle label : String)
    (required : Bool) : List GraphValidationIssue :=
  let found := outgoingOfKind step.key kind edges
  issueIf ((required && decide (found.length ≠ 1)) || (!required && decide (1 < found.length)))
    (issue ("invalid_try_" ++ handle)
      ("TRY_CATCH must have " ++ (if required then "exactly one" else "at most one") ++ " " ++
        label ++ " connection.") step.key none handle)

/-- The checks inside one region of a try step. -/
def tryPartIssues (edges : List GraphEdgeLike) (entries : TryEntries) (part : TryPart) :
    List GraphValidationIssue :=
  let region := entries.region edges part
  let convergence :=
    if entries.finallyEntry.isSome ∧ part ≠ .finalized then "Finally" else "Done"
  issueIf region.isEmpty
    (issue ("empty_try_" ++ part.handle)
      ("TRY_CATCH " ++ part.label ++ " must contain at least one step.") step.key none
      part.handle) ++
  region.flatMap fun key =>
    issueIf (decide (typeOf? steps key = some .tryCatch))
      (issue "nested_try_catch" "Nested TRY_CATCH regions are not supported." (some key)) ++
    issueIf (!canReach key (entries.target part) edges)
      (issue "try_region_escape"
        ("Every TRY_CATCH " ++ part.label ++ " path must converge on " ++ convergence ++ ".")
        (some key)) ++
    escapeIssues js "try_region_escape"
      ("TRY_CATCH " ++ part.label ++ " edges cannot escape the controlled region.") region
      (entries.target part) key edges

/-- Keys that two regions share. -/
def tryOverlapIssues (entries : TryEntries) : List GraphValidationIssue :=
  ((TryPart.all.flatMap (entries.region edges)).foldl setAdd []).flatMap fun key =>
    issueIf (decide (1 < TryPart.all.countP fun part => decide (key ∈ entries.region edges part)))
      (issue "try_region_overlap" "TRY_CATCH regions must be disjoint." (some key))

/-- Edges that enter a region from outside, other than at its start from the try step or, for
Finally, from Body and Catch. -/
def tryEntryIssues (edges : List GraphEdgeLike) (entries : TryEntries) : List GraphValidationIssue :=
  edges.flatMap fun edge =>
    match edge.from?, edge.to? with
    | some source, some target =>
      TryPart.all.flatMap fun part =>
        match entries.entry part with
        | none => []
        | some entry =>
          let structuredEntry := decide (source = step.key) && decide (target = entry) &&
            decide (edge.kind? = some part.kind)
          let finallyConvergence := decide (some entry = entries.finallyEntry) &&
            decide (some target = entries.finallyEntry) &&
            (decide (source ∈ entries.region edges .body) ||
              decide (source ∈ entries.region edges .caught))
          issueIf (decide (target ∈ entries.region edges part) &&
              decide (source ∉ entries.region edges part) &&
              !structuredEntry && !finallyConvergence)
            (issue "try_external_entry" "TRY_CATCH regions cannot receive external connections."
              (some target) (edge.edgeId js))
    | _, _ => []

def tryRegionIssues (edges : List GraphEdgeLike) (entries : TryEntries) : List GraphValidationIssue :=
  TryPart.all.flatMap (tryPartIssues js step steps edges entries) ++
  tryOverlapIssues edges entries ++
  tryEntryIssues js step edges entries

/-- The first edge of a kind and its target. -/
def firstTarget (kind : EdgeKind) (edges : List GraphEdgeLike) : Option String :=
  (outgoingOfKind stepKey kind edges).head?.bind (·.to?)

/-- The regions of a try step, where Body, Catch and Done have a target. -/
def tryEntries? : Option TryEntries :=
  match firstTarget stepKey .tryBody edges, firstTarget stepKey .tryCatch edges,
      firstTarget stepKey .tryDone edges with
  | some bodyEntry, some catchEntry, some done =>
    some { bodyEntry, catchEntry, finallyEntry := firstTarget stepKey .tryFinally edges, done }
  | _, _, _ => none

def validateTryCatch (stepKeys : List String) (edges : List GraphEdgeLike) :
    List GraphValidationIssue :=
  tryConnectionIssues step edges .tryBody "body" "Body" true ++
  tryConnectionIssues step edges .tryCatch "catch" "Catch" true ++
  tryConnectionIssues step edges .tryFinally "finally" "Finally" false ++
  tryConnectionIssues step edges .tryDone "done" "Done" true ++
  edgeKindIssues js "invalid_try_edge" "TRY_CATCH may only use Body, Catch, Finally and Done edges."
    [.tryBody, .tryCatch, .tryFinally, .tryDone] step edges ++
  match tryEntries? step.key edges with
  | none => []
  | some entries =>
    if entries.bodyEntry ∉ stepKeys ∨ entries.catchEntry ∉ stepKeys ∨ entries.done ∉ stepKeys then
      []
    else if ¬ ([entries.bodyEntry, entries.catchEntry] ++ entries.finallyEntry.toList ++
        [entries.done]).Nodup then
      [issue "try_region_overlap" "TRY_CATCH region entries and Done must be distinct." step.key]
    else tryRegionIssues js step steps edges entries

/-! ## All checks -/

def validateNonControl (edges : List GraphEdgeLike) : List GraphValidationIssue :=
  edgeKindIssues js "invalid_non_control_edge" "This step can only use next edges." [.next] step
    edges

def validateReturnWorkflowOutput (edges : List GraphEdgeLike) : List GraphValidationIssue :=
  issueIf (!(outgoingEdges step.key edges).isEmpty)
    (issue "return_has_output" "RETURN_WORKFLOW_OUTPUT cannot have outgoing connections." step.key)

/-- The checks that depend on the type of a step. -/
def stepIssues (stepKeys : List String) (edges : List GraphEdgeLike) (step : GraphStepLike) :
    List GraphValidationIssue :=
  (match step.type with
    | .conditional =>
      [issue "legacy_conditional_not_supported"
        "Legacy conditional is not supported in graph workflows. Use IF or Switch." step.key]
    | .if => validateIf js step stepKeys edges
    | .switch => validateSwitch js step stepKeys edges
    | .forEach => validateForEach js step steps stepKeys edges
    | .tryCatch => validateTryCatch js step steps stepKeys edges
    | .approval => validateApproval js step edges
    | _ => validateNonControl js step edges) ++
  (match step.type with
    | .delay => validateDelay step
    | .waitUntil => validateWaitUntil js step
    | .executeWorkflow => validateExecuteWorkflow js step
    | .returnWorkflowOutput => validateReturnWorkflowOutput step edges
    | _ => [])

end Validation

open Validation in
def validateGraphV2 (js : JsLib) (steps : List GraphStepLike) (graph : Option Json) :
    List GraphValidationIssue :=
  if graph.any fun value => value matches .obj _ | .arr _ then
    let stepKeys := steps.map (·.key)
    let entryStepKey := stringValue (Json.field graph "entryStepKey")
    let edges := normalizedEdges graph
    let single := edgeIssues js stepKeys [] [] edges
    duplicateStepIssues [] [] steps ++
    issueIf steps.isEmpty (issue "empty_graph" "Workflow graph must contain at least one step.") ++
    issueIf (!entryStepKey.any fun key => decide (key ∈ stepKeys))
      (issue "invalid_entry" "Workflow graph entryStepKey must reference an existing step.") ++
    single ++
    (if single.any fun reported => decide (reported.code = "invalid_edge") then []
      else acyclicIssues stepKeys edges ++
        match entryStepKey with
        | some entry => reachableIssues entry stepKeys edges
        | none => []) ++
    steps.flatMap (stepIssues js steps stepKeys edges)
  else [issue "missing_graph" "Workflow graph is required for schema version 2."]

/-! ## What the traversals compute -/

namespace Validation

variable {edges : List GraphEdgeLike}

lemma edge_iff {a b : String} :
    Edge (succ edges) a b ↔ ∃ edge ∈ edges, edge.from? = some a ∧ edge.to? = some b := by
  simp [Edge, succ, outgoingEdges, and_assoc]

/-- The nodes that a traversal from `start` can meet. -/
def nodesFrom (edges : List GraphEdgeLike) (start : String) : List String :=
  start :: edges.filterMap (·.to?)

section

variable (edges : List GraphEdgeLike) (start : String)

lemma length_nodesFrom_le : (nodesFrom edges start).length ≤ edges.length + 1 := by
  exact Nat.succ_le_succ (List.length_filterMap_le _ edges)

lemma closedUnder_nodesFrom : ClosedUnder (succ edges) (nodesFrom edges start) := by
  intro a _ b hb
  obtain ⟨edge, hedge, _, hto⟩ := edge_iff.mp hb
  exact List.mem_cons_of_mem start (List.mem_filterMap.mpr ⟨edge, hedge, hto⟩)

end

lemma mem_descendantsUntil_iff {start stop x : String} :
    x ∈ descendantsUntil start stop edges ↔ ReachOff (succ edges) (· = stop) start x := by
  have hiff : x ∈ descendantsUntil start stop edges ↔
      ReachOff (succ edges) (fun key => decide (key = stop) = true) start x :=
    mem_explore_iff (closedUnder_nodesFrom edges start) List.mem_cons_self
      (length_nodesFrom_le edges start) x
  simpa using hiff

lemma canReach_iff {start target : String} :
    canReach start target edges = true ↔ Reach (succ edges) start target :=
  search_iff (closedUnder_nodesFrom edges start) List.mem_cons_self (length_nodesFrom_le edges start)

variable {stepKeys : List String}

lemma reach_of_reachableIssues {entry : String} (h : reachableIssues entry stepKeys edges = [])
    {key : String} (hkey : key ∈ stepKeys) : Reach (succ edges) entry key := by
  have hseen : key ∈ explore (succ edges) (fun _ => false) (edges.length + 1) [] entry := by
    by_contra hnot
    simp only [reachableIssues, List.map_eq_nil_iff, List.filter_eq_nil_iff] at h
    exact h key hkey (by simpa using hnot)
  exact ((mem_explore_iff (closedUnder_nodesFrom edges entry) List.mem_cons_self
    (length_nodesFrom_le edges entry) key).mp hseen).reach

lemma acyclic_of_acyclicIssues (hfrom : ∀ edge ∈ edges, ∀ a, edge.from? = some a → a ∈ stepKeys)
    (h : acyclicIssues stepKeys edges = []) : Acyclic (succ edges) := by
  intro a hcycle
  obtain ⟨b, hab, _⟩ := Relation.TransGen.head'_iff.mp hcycle
  obtain ⟨edge, hedge, ha, _⟩ := edge_iff.mp hab
  have hnil := List.map_eq_nil_iff.mp h
  exact cyclesFrom_acyclic hnil (hfrom edge hedge a ha) a Relation.ReflTransGen.refl hcycle

/-! ## What an accepted definition satisfies -/

/-- Without issues every single edge is valid. -/
lemma isValidEdge_of_edgeIssues {js : JsLib} :
    ∀ (seenEdges handles : List String) (edges : List GraphEdgeLike),
      edgeIssues js stepKeys seenEdges handles edges = [] →
      ∀ edge ∈ edges, isValidEdge stepKeys edge = true
  | _, _, [], _, _, hedge => absurd hedge (List.not_mem_nil)
  | seenEdges, handles, e :: es, h, edge, hedge => by
    rw [edgeIssues] at h
    cases hvalid : isValidEdge stepKeys e with
    | false => simp [hvalid] at h
    | true =>
      simp only [hvalid, if_true, List.append_eq_nil_iff] at h
      rcases List.mem_cons.mp hedge with rfl | hedge
      · exact hvalid
      · exact isValidEdge_of_edgeIssues _ _ es h.2.2 edge hedge

/-- The checks that an accepted definition has passed. -/
structure Accepted (js : JsLib) (steps : List GraphStepLike) (graph : Option Json)
    (entry : String) : Prop where
  entry_eq : stringValue (Json.field graph "entryStepKey") = some entry
  entry_mem : entry ∈ steps.map (·.key)
  duplicates : duplicateStepIssues [] [] steps = []
  edges : edgeIssues js (steps.map (·.key)) [] [] (normalizedEdges graph) = []
  cycles : acyclicIssues (steps.map (·.key)) (normalizedEdges graph) = []
  reachable : reachableIssues entry (steps.map (·.key)) (normalizedEdges graph) = []
  step : ∀ step ∈ steps,
    stepIssues js steps (steps.map (·.key)) (normalizedEdges graph) step = []

end Validation

open Validation in
/-- **Inversion of the validation**: a definition without issues has passed every check. -/
theorem accepted_of_validateGraphV2 {js : JsLib} {steps : List GraphStepLike} {graph : Option Json}
    (h : validateGraphV2 js steps graph = []) : ∃ entry, Accepted js steps graph entry := by
  unfold validateGraphV2 at h
  split at h
  · simp only [List.append_eq_nil_iff, issueIf_eq_nil, List.flatMap_eq_nil_iff] at h
    obtain ⟨⟨⟨⟨⟨hdup, _⟩, hentry⟩, hedges⟩, hwhole⟩, hsteps⟩ := h
    cases hkey : stringValue (Json.field graph "entryStepKey") with
    | none => simp [hkey] at hentry
    | some entry =>
      rw [hedges] at hwhole
      simp only [hkey, Option.any_some, Bool.not_eq_false', decide_eq_true_eq] at hentry
      simp only [List.any_nil, Bool.false_eq_true, if_false, hkey, List.append_eq_nil_iff] at hwhole
      exact ⟨entry, hkey, hentry, hdup, hedges, hwhole.1, hwhole.2, hsteps⟩
  · exact absurd h (by simp)

namespace Validation

variable {js : JsLib} {steps : List GraphStepLike} {graph : Option Json} {entry : String}

section

variable (h : Accepted js steps graph entry)
include h

lemma Accepted.from_mem :
    ∀ edge ∈ normalizedEdges graph, ∀ a, edge.from? = some a → a ∈ steps.map (·.key) := by
  intro edge hedge a ha
  have hvalid := isValidEdge_of_edgeIssues [] [] _ h.edges edge hedge
  simp only [isValidEdge, ha, Option.any_some, Bool.and_eq_true, decide_eq_true_eq] at hvalid
  exact hvalid.1.1

lemma Accepted.to_mem :
    ∀ edge ∈ normalizedEdges graph, ∃ b, edge.to? = some b ∧ b ∈ steps.map (·.key) := by
  intro edge hedge
  have hvalid := isValidEdge_of_edgeIssues [] [] _ h.edges edge hedge
  simp only [isValidEdge, Bool.and_eq_true, Option.any_eq_true, decide_eq_true_eq] at hvalid
  exact hvalid.1.2

lemma Accepted.acyclic : Acyclic (succ (normalizedEdges graph)) :=
  acyclic_of_acyclicIssues h.from_mem h.cycles

lemma Accepted.reach {step : GraphStepLike} (hstep : step ∈ steps) :
    Reach (succ (normalizedEdges graph)) entry step.key :=
  reach_of_reachableIssues h.reachable (List.mem_map_of_mem hstep)

end

end Validation

end Flowmind
