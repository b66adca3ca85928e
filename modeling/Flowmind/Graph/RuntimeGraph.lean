import Flowmind.Js.Value
import Flowmind.Traversal.Cycle

/-!
# The graph of a workflow, as the worker reads it

`parseRuntimeGraph` reads the graph out of a stored workflow definition, and `validateRuntimeGraph`
is the check the worker makes before it runs anything: the entry is a step, every edge joins two
different steps, and there is no directed cycle.  The planner then chooses, step by step, where to
go on.

* `WellFormed` — what that check is for, in terms of the walks of the graph.
* `validateRuntimeGraph_eq_ok_iff` — the check accepts exactly the well-formed graphs.
* `selectedNextStepKey`, `branchSkipKeys` — the planner.
-/

namespace Flowmind

open Traversal

/-! ## Edges -/

/-- The kinds of edges. -/
inductive EdgeKind where
  | next | ifTrue | ifFalse | switchCase | switchDefault | forEachBody | forEachDone
  | tryBody | tryCatch | tryFinally | tryDone
  | approvalApproved | approvalRejected | approvalExpired
deriving DecidableEq, Repr

namespace EdgeKind

/-- The kinds, in the order in which the source lists them. -/
def all : List EdgeKind :=
  [next, ifTrue, ifFalse, switchCase, switchDefault, forEachBody, forEachDone, tryBody, tryCatch,
    tryFinally, tryDone, approvalApproved, approvalRejected, approvalExpired]

/-- How a kind is written in a definition. -/
def name : EdgeKind → String
  | next => "next"
  | ifTrue => "if_true"
  | ifFalse => "if_false"
  | switchCase => "switch_case"
  | switchDefault => "switch_default"
  | forEachBody => "for_each_body"
  | forEachDone => "for_each_done"
  | tryBody => "try_body"
  | tryCatch => "try_catch"
  | tryFinally => "try_finally"
  | tryDone => "try_done"
  | approvalApproved => "approval_approved"
  | approvalRejected => "approval_rejected"
  | approvalExpired => "approval_expired"

/-- The kind written `s`, if there is one. -/
def ofName? (s : String) : Option EdgeKind := all.find? fun kind => decide (kind.name = s)

end EdgeKind

/-- An edge of the runtime graph. -/
structure RuntimeGraphEdge where
  fromKey : String
  toKey : String
  kind : EdgeKind
  label : Option String
  caseKey : Option String
deriving DecidableEq, Repr

/-- The graph of a definition of schema version 2. -/
structure RuntimeGraph where
  entryStepKey : String
  edges : List RuntimeGraphEdge
  terminalStepKeys : Option (List String)
deriving DecidableEq, Repr

/-! ## Reading the graph -/

/-- One item of `graph.edges`; it is dropped when an endpoint is empty or the kind is unknown. -/
def parseRuntimeGraphEdge (js : JsLib) (edge : Json) : Option RuntimeGraphEdge :=
  let fromKey := Json.stringOrEmpty js (edge.get? "from")
  let toKey := Json.stringOrEmpty js (edge.get? "to")
  if fromKey = "" ∨ toKey = "" then none
  else (EdgeKind.ofName? (Json.stringOrEmpty js (edge.get? "kind"))).map fun kind =>
    { fromKey, toKey, kind
      label := Json.asString? (edge.get? "label")
      caseKey := Json.asString? (edge.get? "caseKey") }

def parseRuntimeGraph (js : JsLib) (definition : Json) : Option RuntimeGraph :=
  if Json.strictEq false (definition.get? "workflowDefinitionSchemaVersion") (some (.num 2)) then
    let graph := definition.get? "graph"
    let entryStepKey := (Json.asString? (Json.field graph "entryStepKey")).getD ""
    let edges := ((Json.asArray? (Json.field graph "edges")).getD []).filterMap
      (parseRuntimeGraphEdge js)
    let terminalStepKeys := (Json.asArray? (Json.field graph "terminalStepKeys")).map
      fun keys => keys.filterMap fun key => Json.asString? (some key)
    if entryStepKey = "" then none else some { entryStepKey, edges, terminalStepKeys }
  else none

/-! ## Traversing it -/

namespace RuntimeGraph

variable (graph : RuntimeGraph) (stepKey : String)

def outgoingEdges : List RuntimeGraphEdge :=
  graph.edges.filter fun edge => decide (edge.fromKey = stepKey)

/-- The targets of the outgoing edges, in order. -/
def succ : List String :=
  (graph.outgoingEdges stepKey).map (·.toKey)

/-- The keys reached from `stepKey` in at least one edge, in the order in which they are met.  The
source tests `seen` before it visits a target; here that test opens the visit. -/
def descendants : List String :=
  (graph.succ stepKey).foldl (explore graph.succ (fun _ => false) (graph.edges.length + 1)) []

/-- The keys reached from `start` without entering `stop`: the region of a loop or try block.  The
runner calls it `bodyRegion`. -/
def regionKeys (start stop : String) : List String :=
  explore graph.succ (fun key => decide (key = stop)) (graph.edges.length + 2) [] start

/-- The target of the first edge of a kind. -/
def target? (kind : EdgeKind) : Option String :=
  (graph.edges.find? fun edge => decide (edge.fromKey = stepKey) && decide (edge.kind = kind)).map
    (·.toKey)

/-- `none` where the source throws "Workflow graph cannot contain cycles". -/
def assertAcyclic (stepKeys : List String) : Option (List String) :=
  stepKeys.foldlM (acyclicFrom graph.succ (stepKeys.length + 1) []) []

end RuntimeGraph

variable (graph : RuntimeGraph)

def validateRuntimeGraph (stepKeys : List String) : Except String Unit :=
  if graph.entryStepKey ∉ stepKeys then .error "Workflow graph entry step is invalid"
  else if graph.edges.any fun edge =>
      decide (edge.fromKey ∉ stepKeys) || decide (edge.toKey ∉ stepKeys) ||
        decide (edge.fromKey = edge.toKey) then
    .error "Workflow graph contains an invalid edge"
  else if (graph.assertAcyclic stepKeys).isNone then .error "Workflow graph cannot contain cycles"
  else .ok ()

/-! ## What the traversals compute -/

namespace RuntimeGraph

lemma edge_iff {graph : RuntimeGraph} {a b : String} :
    Edge graph.succ a b ↔ ∃ edge ∈ graph.edges, edge.fromKey = a ∧ edge.toKey = b := by
  simp [Edge, succ, outgoingEdges, and_assoc]

/-! ## What the worker's check establishes -/

/-- A graph over the given steps that the worker may run. -/
structure WellFormed (graph : RuntimeGraph) (stepKeys : List String) : Prop where
  /-- The entry is a step. -/
  entry_mem : graph.entryStepKey ∈ stepKeys
  /-- Every edge starts at a step … -/
  from_mem : ∀ edge ∈ graph.edges, edge.fromKey ∈ stepKeys
  /-- … and ends at one. -/
  to_mem : ∀ edge ∈ graph.edges, edge.toKey ∈ stepKeys
  /-- There is no directed cycle. -/
  acyclic : Acyclic graph.succ

/-- A cycle passes through the start of an edge, so it is enough to look at those. -/
lemma acyclic_of_from {graph : RuntimeGraph}
    (h : ∀ edge ∈ graph.edges, ¬ ReachPlus graph.succ edge.fromKey edge.fromKey) :
    Acyclic graph.succ := by
  intro a hcycle
  obtain ⟨b, hab, _⟩ := Relation.TransGen.head'_iff.mp hcycle
  obtain ⟨edge, hedge, rfl, _⟩ := edge_iff.mp hab
  exact h edge hedge hcycle

lemma assertAcyclic_isNone_eq_false_iff {graph : RuntimeGraph} {stepKeys : List String}
    (hfrom : ∀ edge ∈ graph.edges, edge.fromKey ∈ stepKeys)
    (hto : ∀ edge ∈ graph.edges, edge.toKey ∈ stepKeys) :
    (graph.assertAcyclic stepKeys).isNone = false ↔ Acyclic graph.succ := by
  rw [← Option.not_isSome, Bool.not_eq_false', assertAcyclic, acyclicFrom_isSome_iff]
  constructor
  · intro hnil
    exact acyclic_of_from fun edge hedge =>
      cyclesFrom_acyclic hnil (hfrom edge hedge) _ Relation.ReflTransGen.refl
  · intro hac
    have hclosed : ClosedUnder graph.succ stepKeys := by
      intro a _ b hb
      obtain ⟨edge, hedge, _, rfl⟩ := edge_iff.mp hb
      exact hto edge hedge
    exact cyclesFrom_nil_of_acyclic hac hclosed (by omega) (List.Subset.refl stepKeys)

end RuntimeGraph

/-- **The worker's check accepts exactly the well-formed graphs.** -/
theorem validateRuntimeGraph_eq_ok_iff {graph : RuntimeGraph} {stepKeys : List String} :
    validateRuntimeGraph graph stepKeys = .ok () ↔ graph.WellFormed stepKeys := by
  unfold validateRuntimeGraph
  constructor
  · intro h
    split at h
    · exact absurd h (by simp)
    rename_i hentry
    split at h
    · exact absurd h (by simp)
    rename_i hedges
    split at h
    · exact absurd h (by simp)
    rename_i hcycle
    simp only [List.any_eq_true, Bool.or_eq_true, decide_eq_true_eq, not_exists, not_and, not_or,
      not_not] at hedges
    have hfrom := fun edge hedge => (hedges edge hedge).1.1
    have hto := fun edge hedge => (hedges edge hedge).1.2
    exact ⟨not_not.mp hentry, hfrom, hto,
      (RuntimeGraph.assertAcyclic_isNone_eq_false_iff hfrom hto).mp (Bool.eq_false_iff.mpr hcycle)⟩
  · intro h
    have hcycle := (RuntimeGraph.assertAcyclic_isNone_eq_false_iff h.from_mem h.to_mem).mpr h.acyclic
    -- A self-loop would be a cycle of length one.
    have hself : ∀ edge ∈ graph.edges, edge.fromKey ≠ edge.toKey := fun edge hedge heq =>
      h.acyclic edge.fromKey (Relation.TransGen.single
        (RuntimeGraph.edge_iff.mpr ⟨edge, hedge, rfl, heq.symm⟩))
    rw [if_neg (not_not.mpr h.entry_mem), if_neg, if_neg (by simp [hcycle])]
    simp only [List.any_eq_true, Bool.or_eq_true, decide_eq_true_eq, not_exists, not_and, not_or,
      not_not]
    exact fun edge hedge => ⟨⟨h.from_mem edge hedge, h.to_mem edge hedge⟩, hself edge hedge⟩

/-! ## Choosing the next step

After a step the worker asks where to go (`selectedNextStepKey`), and after a control step also
which steps the choice rules out (`branchSkipKeys`): those are marked skipped and never run.  The
target of another branch is added before its descendants are filtered, so a branch target on which
the selected branch converges is skipped although it is going to run. -/

/-- Where to go after `stepKey`, given its output: an explicit next key, the edge of an approval
decision, or else the `next` edge. -/
def selectedNextStepKey (stepKey : String) (outputJson : Option Json) : Option String :=
  let explicit := (Json.asString? (Json.field outputJson "nextStepKey")).getD ""
  if explicit ≠ "" then some explicit
  else match Json.asString? (Json.field outputJson "decision") with
    | some decision =>
      ((graph.outgoingEdges stepKey).find? fun edge =>
        decide (edge.kind.name = "approval_" ++ jsToLowerCase decision)).map (·.toKey)
    | none =>
      ((graph.outgoingEdges stepKey).find? fun edge => decide (edge.kind = .next)).map (·.toKey)

/-- The keys added for one other target. -/
def skipTarget (reachableFromSelected skipped : List String) (target : String) : List String :=
  (graph.descendants target).foldl
    (fun skipped child => if child ∈ reachableFromSelected then skipped else setAdd skipped child)
    (setAdd skipped target)

def branchSkipKeys (stepKey selectedStepKey : String) : List String :=
  let reachableFromSelected := setAdd (graph.descendants selectedStepKey) selectedStepKey
  let skipped := (graph.outgoingEdges stepKey).foldl
    (fun skipped edge =>
      if edge.toKey = selectedStepKey then skipped
      else skipTarget graph reachableFromSelected skipped edge.toKey) []
  skipped.filter fun key => decide (key ≠ selectedStepKey)

def isTerminal (stepKey : String) : Bool :=
  decide (stepKey ∈ graph.terminalStepKeys.getD []) || (graph.outgoingEdges stepKey).isEmpty

end Flowmind
