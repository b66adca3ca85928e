import Flowmind.Expression.Resolver
import Flowmind.Graph.Regions

/-!
# The handlers of IF and SWITCH steps

The two handlers choose a branch and name its first step in their output, from which the worker
reads where to go on.  The name comes from the configuration of the step (`trueStepKey`, the
`stepKey` of a case, …), while the validation looks at the branch in the edges of the graph: it
checks that the configured key is the key of some step and that the branch has an edge, but never
that the two agree.  The whole configuration is resolved before a handler sees it, so a key that
holds an expression may become anything.

* `ifHandler`, `switchHandler` — the handlers, on the resolved configuration of a step.
* `Resolves` — what the handlers are given; `get?_of_resolves` — fields without delimiters are given
  as they are stored.
* `IfAgrees`, `SwitchAgrees` — the configured keys are the targets of the edges.
* `branching_follows_edges_iff` — in an accepted definition a branching step whose keys are no
  templates follows its edges, in all contexts, exactly when they agree.
-/

namespace Flowmind

/-! ## The handlers -/

/-- The condition of an IF step. -/
def evaluate (js : JsLib) (sameRef : Bool) (left operator right : Option Json) :
    Except String Bool :=
  if Json.asString? operator = some "equals" then .ok (Json.strictEq sameRef left right)
  else if Json.asString? operator = some "not_equals" then .ok (!Json.strictEq sameRef left right)
  else if Json.asString? operator = some "contains" then
    .ok (jsIncludes (Json.stringOf js left) (Json.stringOf js right))
  else .error ("Unsupported if operator " ++ Json.stringOf js operator)

/-- `IfHandler.execute`: the output, on a resolved configuration. -/
def ifHandler (js : JsLib) (sameRef : Bool) (stepKey : String) (config : Json) :
    Except String Json := do
  let matched ← evaluate js sameRef (config.get? "left") (config.get? "operator")
    (config.get? "right")
  let branch := if matched then "true" else "false"
  match (if matched then config.get? "trueStepKey" else config.get? "falseStepKey") with
  | some nextStepKey =>
    if Json.truthy (some nextStepKey) then
      .ok (.obj [("matched", .bool matched), ("branch", .str branch),
        ("nextStepKey", nextStepKey)])
    else .error ("If step " ++ stepKey ++ " resolved to a missing " ++ branch ++ " branch")
  | none => .error ("If step " ++ stepKey ++ " resolved to a missing " ++ branch ++ " branch")

/-- The first case whose `match` is the value, with its index; `sameRef i` is the answer of `===`
where the value and the `match` of case `i` are both objects or both arrays. -/
def matchedCase (sameRef : ℕ → Bool) (cases : List Json) (value : Option Json) :
    Option (Json × ℕ) :=
  cases.zipIdx.find? fun (entry, i) => Json.strictEq (sameRef i) (entry.get? "match") value

/-- `config.cases ?? []`, on which `find` is called. -/
def casesOf (config : Json) : Except String (List Json) :=
  match config.get? "cases" with
  | none => .ok []
  | some .null => .ok []
  | some (.arr items) => .ok items
  | some _ => .error "TypeError"

/-- `SwitchHandler.execute`: the output, on a resolved configuration. -/
def switchHandler (sameRef : ℕ → Bool) (stepKey : String) (config : Json) :
    Except String Json := do
  let cases ← casesOf config
  let matched := (matchedCase sameRef cases (config.get? "value")).map (·.1)
  let nextStepKey := Json.orElse (Json.field matched "stepKey")
    (Json.orElse (config.get? "defaultStepKey") .null)
  if Json.truthy (some nextStepKey) then
    .ok (.obj [("matchedCaseKey", Json.orElse (Json.field matched "key") .null),
      ("matchedCaseLabel", Json.orElse (Json.field matched "label") .null),
      ("usedDefault", .bool matched.isNone), ("nextStepKey", nextStepKey)])
  else .error ("Switch step " ++ stepKey ++ " resolved to a missing branch")

/-! ## Following the edges -/

/-- An edge of a kind, and for a switch case of that case, leads from one step to another. -/
def BranchEdge (edges : List GraphEdgeLike) (stepKey : String) (kind : EdgeKind)
    (caseKey : Option String) (target : String) : Prop :=
  ∃ edge ∈ edges, edge.from? = some stepKey ∧ edge.kind? = some kind ∧
    (kind = .switchCase → edge.case? = caseKey) ∧ edge.to? = some target

/-- The output names a step, the worker goes there, and an edge of the given kind leads there. -/
def Routes (edges : List GraphEdgeLike) (stepKey : String) (output : Json) (kind : EdgeKind)
    (caseKey : Option String) : Prop :=
  ∃ key, output.get? "nextStepKey" = some (.str key) ∧
    (∀ graph, selectedNextStepKey graph stepKey (some output) = some key) ∧
    BranchEdge edges stepKey kind caseKey key

/-- A configuration that the step may be executed with: what some context makes of the stored one,
with any values in the fields that are free. -/
def Resolves (js : JsLib) (stored : Json) (free : List String) (config : Json) : Prop :=
  ∃ mode context resolved, resolveValue js mode context stored = .ok resolved ∧
    ∀ name ∉ free, config.get? name = resolved.get? name

/-- Whatever the context is, and whatever the two sides of the condition resolve to, the IF step
follows the edge of the branch that its output reports. -/
def IfFollowsEdges (js : JsLib) (step : GraphStepLike) (edges : List GraphEdgeLike) : Prop :=
  ∀ config, Resolves js step.config ["left", "right"] config →
    ∀ sameRef output, ifHandler js sameRef step.key config = .ok output →
      ∃ matched, output.get? "matched" = some (.bool matched) ∧
        Routes edges step.key output (if matched then .ifTrue else .ifFalse) none

/-- Whatever the context is, and whatever the value resolves to, the SWITCH step follows the edge of
the case that its output reports, or of the default. -/
def SwitchFollowsEdges (js : JsLib) (step : GraphStepLike) (edges : List GraphEdgeLike) : Prop :=
  ∀ config, Resolves js step.config ["value"] config →
    ∀ sameRef output, switchHandler sameRef step.key config = .ok output →
      ∃ usedDefault, output.get? "usedDefault" = some (.bool usedDefault) ∧
        Routes edges step.key output (if usedDefault then .switchDefault else .switchCase)
          (stringValue (output.get? "matchedCaseKey"))

/-- There are no delimiters in these fields of the configuration. -/
def Untemplated (config : Json) (names : List String) : Prop :=
  ∀ name ∈ names, ∀ v, config.get? name = some v → ∀ s ∈ texts v, Plain s

/-- The configured key of a branch is the target of its edge. -/
def TargetAgrees (edges : List GraphEdgeLike) (stepKey : String) (kind : EdgeKind)
    (caseKey : Option String) (configured : Option Json) : Prop :=
  ∃ key, configured = some (.str key) ∧ BranchEdge edges stepKey kind caseKey key

/-- The operators that the handler knows. -/
def ifOperators : List String := ["equals", "not_equals", "contains"]

/-- An IF step whose operator may become a known one has the targets of its edges in its
configuration. -/
def IfAgrees (js : JsLib) (step : GraphStepLike) (edges : List GraphEdgeLike) : Prop :=
  (∃ config, Resolves js step.config ["left", "right"] config ∧
    ∃ operator ∈ ifOperators, Json.asString? (config.get? "operator") = some operator) →
      TargetAgrees edges step.key .ifTrue none (step.config.get? "trueStepKey") ∧
      TargetAgrees edges step.key .ifFalse none (step.config.get? "falseStepKey")

/-- A SWITCH step that can be resolved has the targets of its edges in its configuration, for the
default and for every case that no earlier case hides. -/
def SwitchAgrees (js : JsLib) (step : GraphStepLike) (edges : List GraphEdgeLike) : Prop :=
  (∃ config, Resolves js step.config ["value"] config) →
  (∀ (i : ℕ) (entry : Json), (Validation.switchCases step.config)[i]? = some entry →
    (∀ j < i, ∀ earlier, (Validation.switchCases step.config)[j]? = some earlier →
      Json.strictEq false (earlier.get? "match") (entry.get? "match") = false) →
    TargetAgrees edges step.key .switchCase (stringValue (entry.get? "key"))
      (entry.get? "stepKey")) ∧
  TargetAgrees edges step.key .switchDefault none (step.config.get? "defaultStepKey")

variable {key : String} {output : Json}

/-- An output that names a step sends the worker there. -/
lemma selectedNextStepKey_explicit (h : output.get? "nextStepKey" = some (.str key))
    (hne : key ≠ "") (graph : RuntimeGraph) (stepKey : String) :
    selectedNextStepKey graph stepKey (some output) = some key := by
  have hexplicit : Json.asString? (Json.field (some output) "nextStepKey") = some key := by
    simp [Json.field, h, Json.asString?]
  simp [selectedNextStepKey, hexplicit, hne]

variable {edges : List GraphEdgeLike} {stepKey : String} {kind : EdgeKind} {caseKey : Option String}

/-- The output routes to a configured key exactly when the key is the target of the edge. -/
lemma routes_iff (hne : key ≠ "") (h : output.get? "nextStepKey" = some (.str key)) :
    Routes edges stepKey output kind caseKey ↔ BranchEdge edges stepKey kind caseKey key := by
  constructor
  · rintro ⟨key', hkey', _, hedge⟩
    cases h.symm.trans hkey'
    exact hedge
  · exact fun hedge => ⟨key, h, fun graph => selectedNextStepKey_explicit h hne graph stepKey, hedge⟩

lemma targetAgrees_iff :
    TargetAgrees edges stepKey kind caseKey (some (.str key)) ↔
      BranchEdge edges stepKey kind caseKey key := by
  constructor
  · rintro ⟨key', hkey', hedge⟩
    cases hkey'
    exact hedge
  · exact fun hedge => ⟨key, rfl, hedge⟩

/-! ## IF -/

variable {js : JsLib} {sameRef : Bool} {operator : Option Json}

/-- A condition that evaluates has a known operator. -/
lemma operator_of_evaluate {left right : Option Json} {matched : Bool}
    (h : evaluate js sameRef left operator right = .ok matched) :
    ∃ name ∈ ifOperators, Json.asString? operator = some name := by
  unfold evaluate at h
  split at h
  · exact ⟨"equals", by decide, by assumption⟩
  · split at h
    · exact ⟨"not_equals", by decide, by assumption⟩
    · split at h
      · exact ⟨"contains", by decide, by assumption⟩
      · exact absurd h (by simp)

/-- With a known operator the condition can go either way. -/
lemma exists_evaluate (js : JsLib) (h : ∃ name ∈ ifOperators, Json.asString? operator = some name)
    (matched : Bool) : ∃ left right, evaluate js false left operator right = .ok matched := by
  obtain ⟨name, hname, hoperator⟩ := h
  simp only [ifOperators, List.mem_cons, List.not_mem_nil, or_false] at hname
  rcases hname with rfl | rfl | rfl
  · cases matched with
    | true => exact ⟨none, none, by simp [evaluate, hoperator, Json.strictEq]⟩
    | false => exact ⟨none, some .null, by simp [evaluate, hoperator, Json.strictEq]⟩
  · cases matched with
    | true => exact ⟨none, some .null, by simp [evaluate, hoperator, Json.strictEq]⟩
    | false => exact ⟨none, none, by simp [evaluate, hoperator, Json.strictEq]⟩
  · have hcontains : ∀ text : String, evaluate js false (some (.str "")) operator
        (some (.str text)) = .ok (jsIncludes "" text) := by
      simp [evaluate, hoperator, Json.stringOf, Json.toJsString]
    cases matched with
    | true => exact ⟨_, _, (hcontains "").trans (by decide)⟩
    | false => exact ⟨_, _, (hcontains "a").trans (by decide)⟩

/-- The output of an IF step whose two targets are configured. -/
def ifOutput (trueKey falseKey : String) (matched : Bool) : Json :=
  .obj [("matched", .bool matched), ("branch", .str (if matched then "true" else "false")),
    ("nextStepKey", .str (if matched then trueKey else falseKey))]

variable {trueKey falseKey : String} {config : Json}

lemma ifHandler_eq (htrue : config.get? "trueStepKey" = some (.str trueKey))
    (htrueNe : trueKey ≠ "") (hfalse : config.get? "falseStepKey" = some (.str falseKey))
    (hfalseNe : falseKey ≠ "") :
    ifHandler js sameRef stepKey config =
      (evaluate js sameRef (config.get? "left") (config.get? "operator")
        (config.get? "right")).map (ifOutput trueKey falseKey) := by
  unfold ifHandler
  cases evaluate js sameRef (config.get? "left") (config.get? "operator") (config.get? "right") with
  | error message => rfl
  | ok matched =>
    cases matched with
    | true => simp [Except.map, bind, Except.bind, htrue, htrueNe, Json.truthy, ifOutput]
    | false => simp [Except.map, bind, Except.bind, hfalse, hfalseNe, Json.truthy, ifOutput]

variable {fields : List (String × Json)}

/-- A field without delimiters is given to the handler as it is stored. -/
lemma get?_of_resolves {free names : List String} {stored : Json} {name : String}
    (h : Resolves js stored free config) (hobj : stored = .obj fields)
    (hplain : Untemplated stored names) (hname : name ∈ names) (hfree : name ∉ free) :
    config.get? name = stored.get? name := by
  obtain ⟨mode, context, resolved, hresolved, hget⟩ := h
  rw [hget name hfree]
  have hplain := hplain name hname
  rw [hobj] at hresolved hplain ⊢
  rw [resolveValue_obj] at hresolved
  obtain ⟨resolvedFields, hfields, rfl⟩ := exists_of_map_eq_ok hresolved
  rw [Json.get?, Json.get?, lookup_resolveFields hfields]
  rw [Json.get?] at hplain
  cases hlookup : fields.lookup name with
  | none => rfl
  | some v =>
    rw [Option.bind_some, resolveValue_plain (hplain v hlookup)]
    rfl

/-- Any other value may stand in a free field. -/
lemma Resolves.withField {free : List String} {stored : Json} {name : String}
    (h : Resolves js stored free (.obj fields)) (hfree : name ∈ free) (value : Option Json) :
    Resolves js stored free ((Json.obj fields).withField name value) := by
  obtain ⟨mode, context, resolved, hresolved, hget⟩ := h
  refine ⟨mode, context, resolved, hresolved, fun other hother => ?_⟩
  have hne : other ≠ name := fun heq => hother (heq ▸ hfree)
  rw [Json.get?_withField_of_ne hne, hget other hother]

variable {step : GraphStepLike}

/-- An IF step with both targets configured follows its edges exactly when they agree. -/
lemma ifFollowsEdges_iff (hconfig : step.config = .obj fields)
    (hplain : Untemplated step.config ["trueStepKey", "falseStepKey"])
    (htrue : step.config.get? "trueStepKey" = some (.str trueKey)) (htrueNe : trueKey ≠ "")
    (hfalse : step.config.get? "falseStepKey" = some (.str falseKey)) (hfalseNe : falseKey ≠ "") :
    IfFollowsEdges js step edges ↔ IfAgrees js step edges := by
  have hroutes : ∀ matched : Bool, Routes edges step.key (ifOutput trueKey falseKey matched)
      (if matched then .ifTrue else .ifFalse) none ↔
        BranchEdge edges step.key (if matched then .ifTrue else .ifFalse) none
          (if matched then trueKey else falseKey) := by
    intro matched
    exact routes_iff (by cases matched <;> assumption) rfl
  have hrun : ∀ config sameRef, Resolves js step.config ["left", "right"] config →
      ifHandler js sameRef step.key config =
        (evaluate js sameRef (config.get? "left") (config.get? "operator")
          (config.get? "right")).map (ifOutput trueKey falseKey) := by
    intro config sameRef hresolves
    have hget : ∀ name ∈ ["trueStepKey", "falseStepKey"],
        config.get? name = step.config.get? name := fun name hname =>
      get?_of_resolves hresolves hconfig hplain hname (by revert name; decide)
    exact ifHandler_eq ((hget _ (by simp)).trans htrue) htrueNe
      ((hget _ (by simp)).trans hfalse) hfalseNe
  unfold IfAgrees
  rw [htrue, hfalse, targetAgrees_iff, targetAgrees_iff]
  constructor
  · rintro hfollows ⟨config, hresolves, hoperator⟩
    -- The step is executed with this configuration, and with sides that decide the condition.
    obtain ⟨fields', rfl⟩ : ∃ fields', config = .obj fields' := by
      obtain ⟨operator, -, hoperator⟩ := hoperator
      cases config with
      | obj fields' => exact ⟨fields', rfl⟩
      | _ => cases hoperator
    have hedge : ∀ matched : Bool, BranchEdge edges step.key
        (if matched then .ifTrue else .ifFalse) none (if matched then trueKey else falseKey) := by
      intro matched
      obtain ⟨left, right, heval⟩ := exists_evaluate js hoperator matched
      obtain ⟨fields₁, hleft⟩ :
          ∃ fields₁, (Json.obj fields').withField "left" left = .obj fields₁ := ⟨_, rfl⟩
      have hresolves₁ : Resolves js step.config ["left", "right"] (.obj fields₁) :=
        hleft ▸ hresolves.withField (by simp) left
      have hresolves₂ := hresolves₁.withField (show "right" ∈ _ by simp) right
      obtain ⟨matched', hmatched, hroute⟩ := hfollows _ hresolves₂ false
        (ifOutput trueKey falseKey matched) (by
          rw [hrun _ _ hresolves₂, Json.get?_withField_self,
            Json.get?_withField_of_ne (by decide), Json.get?_withField_of_ne (by decide), ← hleft,
            Json.get?_withField_self, Json.get?_withField_of_ne (by decide), heval]
          rfl)
      cases hmatched
      exact (hroutes matched).mp hroute
    exact ⟨hedge true, hedge false⟩
  · intro hagrees config hresolves sameRef output houtput
    rw [hrun _ _ hresolves] at houtput
    obtain ⟨matched, heval, rfl⟩ := exists_of_map_eq_ok houtput
    obtain ⟨hedgeTrue, hedgeFalse⟩ := hagrees ⟨config, hresolves, operator_of_evaluate heval⟩
    refine ⟨matched, rfl, (hroutes matched).mpr ?_⟩
    cases matched with
    | true => exact hedgeTrue
    | false => exact hedgeFalse

/-! ## SWITCH -/

variable {cases : List Json} {entry : Json}

/-- What it means for a case to be the matched one. -/
lemma matchedCase_eq_some_iff {sameRef : ℕ → Bool} {value : Option Json} {i : ℕ} :
    matchedCase sameRef cases value = some (entry, i) ↔
      cases[i]? = some entry ∧ Json.strictEq (sameRef i) (entry.get? "match") value = true ∧
        ∀ j < i, ∀ earlier, cases[j]? = some earlier →
          Json.strictEq (sameRef j) (earlier.get? "match") value = false := by
  unfold matchedCase
  rw [List.find?_eq_some_iff_getElem]
  constructor
  · rintro ⟨hmatch, k, hk, hget, hbefore⟩
    rw [List.getElem_zipIdx] at hget
    simp only [Nat.zero_add, Prod.mk.injEq] at hget
    obtain ⟨hentry, rfl⟩ := hget
    rw [List.length_zipIdx] at hk
    refine ⟨by rw [List.getElem?_eq_getElem hk, hentry], hmatch, fun j hj earlier hearlier => ?_⟩
    have hjlt : j < cases.length := hj.trans hk
    rw [List.getElem?_eq_getElem hjlt, Option.some.injEq] at hearlier
    have hnone := hbefore j hj
    simpa [hearlier] using hnone
  · rintro ⟨hentry, hmatch, hbefore⟩
    obtain ⟨hi, hget⟩ := List.getElem?_eq_some_iff.mp hentry
    refine ⟨hmatch, i, by rwa [List.length_zipIdx], ?_, fun j hj => ?_⟩
    · rw [List.getElem_zipIdx, hget, Nat.zero_add]
    · have hjlt : j < cases.length := hj.trans hi
      simpa using hbefore j hj _ (List.getElem?_eq_getElem hjlt)

/-- The output of a SWITCH step that goes to `key`. -/
def switchOutput (matched : Option Json) (key : String) : Json :=
  .obj [("matchedCaseKey", Json.orElse (Json.field matched "key") .null),
    ("matchedCaseLabel", Json.orElse (Json.field matched "label") .null),
    ("usedDefault", .bool matched.isNone), ("nextStepKey", .str key)]

lemma switchHandler_of_case {sameRef : ℕ → Bool} {i : ℕ} (hcases : casesOf config = .ok cases)
    (hmatched : matchedCase sameRef cases (config.get? "value") = some (entry, i))
    (hkey : entry.get? "stepKey" = some (.str key)) (hne : key ≠ "") :
    switchHandler sameRef stepKey config = .ok (switchOutput (some entry) key) := by
  simp [switchHandler, hcases, bind, Except.bind, hmatched, Json.field, hkey, Json.orElse, hne,
    Json.truthy, switchOutput]

lemma switchHandler_of_default {sameRef : ℕ → Bool} (hcases : casesOf config = .ok cases)
    (hmatched : matchedCase sameRef cases (config.get? "value") = none)
    (hkey : config.get? "defaultStepKey" = some (.str key)) (hne : key ≠ "") :
    switchHandler sameRef stepKey config = .ok (switchOutput none key) := by
  simp [switchHandler, hcases, bind, Except.bind, hmatched, Json.field, hkey, Json.orElse, hne,
    Json.truthy, switchOutput]

/-- The case that an output reports is the key of the matched case. -/
lemma stringValue_matchedCaseKey (entry : Json) (key : String) :
    stringValue ((switchOutput (some entry) key).get? "matchedCaseKey") =
      stringValue (entry.get? "key") := by
  have hfield : (switchOutput (some entry) key).get? "matchedCaseKey" =
      some (Json.orElse (entry.get? "key") .null) := rfl
  rw [hfield]
  rcases entry.get? "key" with _ | value
  · rfl
  · cases value <;> rfl

/-- No case matches an array that is not the same reference. -/
lemma matchedCase_fresh (cases : List Json) :
    matchedCase (fun _ => false) cases (some (.arr [])) = none := by
  unfold matchedCase
  simp [Json.strictEq_fresh]

/-- The conditions under which a SWITCH step has a next step whatever its value. -/
structure SwitchConfigured (config : Json) (fields : List (String × Json)) (cases : List Json)
    (default : String) : Prop where
  config_eq : config = .obj fields
  cases_eq : config.get? "cases" = some (.arr cases)
  targets : ∀ entry ∈ cases, ∃ key, entry.get? "stepKey" = some (.str key) ∧ key ≠ ""
  default_eq : config.get? "defaultStepKey" = some (.str default)
  default_ne : default ≠ ""

variable {default : String}

lemma SwitchConfigured.get?_resolved {stored : Json}
    (h : SwitchConfigured stored fields cases default)
    (hplain : Untemplated stored ["cases", "defaultStepKey"])
    (hresolves : Resolves js stored ["value"] config) :
    casesOf config = .ok cases ∧ config.get? "defaultStepKey" = some (.str default) := by
  have hget : ∀ name ∈ ["cases", "defaultStepKey"], config.get? name = stored.get? name :=
    fun name hname =>
      get?_of_resolves hresolves h.config_eq hplain hname (by revert name; decide)
  refine ⟨?_, (hget _ (by simp)).trans h.default_eq⟩
  simp [casesOf, (hget "cases" (by simp)).trans h.cases_eq]

/-- A configured SWITCH step follows its edges exactly when they agree. -/
lemma switchFollowsEdges_iff (h : SwitchConfigured step.config fields cases default)
    (hplain : Untemplated step.config ["cases", "defaultStepKey"]) :
    SwitchFollowsEdges js step edges ↔ SwitchAgrees js step edges := by
  have hswitchCases : Validation.switchCases step.config = cases := by
    simp [Validation.switchCases, h.cases_eq, Json.asArray?]
  unfold SwitchAgrees
  rw [hswitchCases, h.default_eq, targetAgrees_iff]
  constructor
  · rintro hfollows ⟨config, hresolves⟩
    -- The step is executed with this configuration, whatever its value is.
    obtain ⟨fields', rfl⟩ : ∃ fields', config = .obj fields' := by
      have hdefault := (h.get?_resolved hplain hresolves).2
      cases config with
      | obj fields' => exact ⟨fields', rfl⟩
      | _ => cases hdefault
    have hvalue : ∀ value, ((Json.obj fields').withField "value" value).get? "value" = value :=
      fun value => Json.get?_withField_self
    have hresolved := fun value => hresolves.withField (show "value" ∈ _ by simp) value
    refine ⟨fun i entry hentry hfirst => ?_, ?_⟩
    · -- The value of the case itself selects it: no earlier case equals it.
      obtain ⟨key, hkey, hne⟩ := h.targets entry (List.mem_of_getElem? hentry)
      obtain ⟨hcases, -⟩ := h.get?_resolved hplain (hresolved (entry.get? "match"))
      have hmatched : matchedCase (fun j => decide (j = i)) cases
          (((Json.obj fields').withField "value" (entry.get? "match")).get? "value") =
            some (entry, i) := by
        rw [hvalue]
        refine matchedCase_eq_some_iff.mpr ⟨hentry, ?_, fun j hj earlier hearlier => ?_⟩
        · simpa using Json.strictEq_self (entry.get? "match")
        · simpa [hj.ne] using hfirst j hj earlier hearlier
      obtain ⟨usedDefault, hused, hroute⟩ := hfollows _ (hresolved _) _ _
        (switchHandler_of_case hcases hmatched hkey hne)
      cases hused
      rw [hkey, targetAgrees_iff, ← stringValue_matchedCaseKey entry key]
      exact (routes_iff hne rfl).mp hroute
    · obtain ⟨hcases, hdefault⟩ := h.get?_resolved hplain (hresolved (some (.arr [])))
      obtain ⟨usedDefault, hused, hroute⟩ := hfollows _ (hresolved _) (fun _ => false) _
        (switchHandler_of_default hcases (by rw [hvalue]; exact matchedCase_fresh cases) hdefault
          h.default_ne)
      cases hused
      exact (routes_iff h.default_ne rfl).mp hroute
  · intro hagrees config hresolves sameRef output houtput
    obtain ⟨hagrees, hdefaultEdge⟩ := hagrees ⟨config, hresolves⟩
    obtain ⟨hcases, hdefault⟩ := h.get?_resolved hplain hresolves
    rcases hmatched : matchedCase sameRef cases (config.get? "value") with _ | ⟨entry, i⟩
    · rw [switchHandler_of_default hcases hmatched hdefault h.default_ne] at houtput
      cases houtput
      exact ⟨true, rfl, (routes_iff h.default_ne rfl).mpr hdefaultEdge⟩
    · obtain ⟨hentry, hmatch, hbefore⟩ := matchedCase_eq_some_iff.mp hmatched
      obtain ⟨key, hkey, hne⟩ := h.targets entry (List.mem_of_getElem? hentry)
      rw [switchHandler_of_case hcases hmatched hkey hne] at houtput
      cases houtput
      have hedge := hagrees i entry hentry fun j hj earlier hearlier => by
        by_contra hsame
        have hcongr := Json.strictEq_congr (Bool.not_eq_false _ ▸ hsame) (sameRef j) (sameRef i)
          (config.get? "value")
        rw [hbefore j hj earlier hearlier, hmatch] at hcongr
        exact absurd hcongr (by simp)
      rw [hkey, targetAgrees_iff] at hedge
      refine ⟨false, rfl, (routes_iff hne rfl).mpr ?_⟩
      rw [stringValue_matchedCaseKey]
      exact hedge

/-! ## Accepted definitions -/

namespace Validation

variable {steps : List GraphStepLike} {graph : Option Json} {entry : String}
  {stepKeys : List String}

/-- A configured target that is not reported is a string. -/
lemma exists_str_of_targetIssue {code message : String} {handle : Option String}
    {configured : Option Json}
    (h : targetIssue code message handle step stepKeys (stringValue configured) = []) :
    ∃ key, configured = some (.str key) ∧ key ≠ "" := by
  rw [targetIssue] at h
  cases htarget : stringValue configured with
  | none => simp [htarget] at h
  | some trimmed => exact exists_str_of_stringValue htarget

lemma exists_str_of_switchCaseIssues :
    ∀ (caseKeys caseMatches : List String) (cases : List Json),
      switchCaseIssues js step stepKeys edges caseKeys caseMatches cases = [] →
      ∀ entry ∈ cases, ∃ key, entry.get? "stepKey" = some (.str key) ∧ key ≠ ""
  | _, _, [], _, _, hentry => absurd hentry (List.not_mem_nil)
  | caseKeys, caseMatches, e :: es, h, entry, hentry => by
    simp only [switchCaseIssues, List.append_eq_nil_iff] at h
    rcases List.mem_cons.mp hentry with rfl | hentry
    · exact exists_str_of_targetIssue h.1.1.2
    · exact exists_str_of_switchCaseIssues _ _ es h.2 entry hentry

lemma Accepted.ifConfigured (h : Accepted js steps graph entry) (hstep : step ∈ steps)
    (htype : step.type = .if) :
    (∃ key, step.config.get? "trueStepKey" = some (.str key) ∧ key ≠ "") ∧
      ∃ key, step.config.get? "falseStepKey" = some (.str key) ∧ key ≠ "" := by
  have hissues := h.step step hstep
  simp only [stepIssues, htype, List.append_nil, validateIf, List.append_eq_nil_iff] at hissues
  exact ⟨exists_str_of_targetIssue hissues.1.1.1.1, exists_str_of_targetIssue hissues.1.1.1.2⟩

/-- A value that has a property is an object. -/
lemma exists_obj_of_get? {value : Json} {name : String} (h : config.get? name = some value) :
    ∃ fields, config = .obj fields := by
  cases config with
  | obj fields => exact ⟨fields, rfl⟩
  | _ => exact absurd h (by simp [Json.get?])

lemma Accepted.switchConfigured (h : Accepted js steps graph entry) (hstep : step ∈ steps)
    (htype : step.type = .switch) :
    ∃ fields cases default, SwitchConfigured step.config fields cases default := by
  have hissues := h.step step hstep
  simp only [stepIssues, htype, List.append_nil, validateSwitch, List.append_eq_nil_iff] at hissues
  obtain ⟨⟨⟨⟨hnonempty, hcases⟩, hdefault⟩, _⟩, _⟩ := hissues
  obtain ⟨default, hdefaultEq, hdefaultNe⟩ := exists_str_of_targetIssue hdefault
  obtain ⟨fields, hfields⟩ := exists_obj_of_get? hdefaultEq
  -- The cases are an array, since there is at least one.
  have harray : step.config.get? "cases" = some (.arr (switchCases step.config)) := by
    cases harr : Json.asArray? (step.config.get? "cases") with
    | none => simp [switchCases, harr] at hnonempty
    | some items => rw [switchCases, Json.asArray?_eq_some_iff.mp harr]; rfl
  exact ⟨fields, _, default, hfields, harray, exists_str_of_switchCaseIssues [] [] _ hcases,
    hdefaultEq, hdefaultNe⟩

end Validation

/-- **When branching follows the validated edges.**  For every step of an accepted definition: an IF
step whose keys are no templates goes along its `if_true` or `if_false` edge, in all contexts and for
all conditions, exactly when its configuration names the targets of those edges, or its operator never
is a known one; a SWITCH step whose cases and default hold no templates goes along the edge of the
matched case or the default, in all contexts and for all values, exactly when its configuration names
their targets, or never resolves. -/
theorem branching_follows_edges_iff {js : JsLib} {steps : List GraphStepLike} {graph : Option Json}
    (h : validateGraphV2 js steps graph = []) {step : GraphStepLike} (hstep : step ∈ steps) :
    (step.type = .if → Untemplated step.config ["trueStepKey", "falseStepKey"] →
      (IfFollowsEdges js step (normalizedEdges graph) ↔ IfAgrees js step (normalizedEdges graph))) ∧
    (step.type = .switch → Untemplated step.config ["cases", "defaultStepKey"] →
      (SwitchFollowsEdges js step (normalizedEdges graph) ↔
        SwitchAgrees js step (normalizedEdges graph))) := by
  obtain ⟨entry, hacc⟩ := accepted_of_validateGraphV2 h
  constructor
  · intro htype hplain
    obtain ⟨⟨trueKey, htrue, htrueNe⟩, falseKey, hfalse, hfalseNe⟩ := hacc.ifConfigured hstep htype
    obtain ⟨fields, hconfig⟩ := Validation.exists_obj_of_get? htrue
    exact ifFollowsEdges_iff hconfig hplain htrue htrueNe hfalse hfalseNe
  · intro htype hplain
    obtain ⟨fields, cases, default, hconfigured⟩ := hacc.switchConfigured hstep htype
    exact switchFollowsEdges_iff hconfigured hplain

/-! ### An IF step whose configuration and edges may disagree -/

/-- An IF step with two branches that meet at the end; the true branch is configured as `trueKey`.
-/
def routeStep (trueKey : String) : GraphStepLike :=
  ⟨none, "route", .if, .obj [("left", .str "\x7b\x7b trigger.body.tier \x7d\x7d"),
    ("operator", .str "equals"),
    ("right", .str "vip"), ("trueStepKey", .str trueKey), ("falseStepKey", .str "normal")]⟩

def routeSteps (trueKey : String) : List GraphStepLike :=
  [routeStep trueKey, ⟨none, "vip", .transform, .obj []⟩, ⟨none, "normal", .transform, .obj []⟩,
    ⟨none, "end", .transform, .obj []⟩]

/-- The true branch is connected to `vip`. -/
def routeGraph : Json :=
  .obj [("entryStepKey", .str "route"),
    ("edges", .arr
      [storedEdge "route" "vip" .ifTrue, storedEdge "route" "normal" .ifFalse,
        storedEdge "vip" "end" .next, storedEdge "normal" "end" .next])]

/-- Configured as connected, the step follows its edges. -/
theorem route_vip_follows_edges :
    validateGraphV2 JsLib.integers (routeSteps "vip") (some routeGraph) = [] ∧
      IfFollowsEdges JsLib.integers (routeStep "vip") (normalizedEdges (some routeGraph)) := by
  have hvalid : validateGraphV2 JsLib.integers (routeSteps "vip") (some routeGraph) = [] := by
    decide +kernel
  have hplain : Untemplated (routeStep "vip").config ["trueStepKey", "falseStepKey"] := by
    intro name hname v hv s hs
    simp only [List.mem_cons, List.not_mem_nil, or_false] at hname
    rcases hname with rfl | rfl
    all_goals
      cases hv
      rw [List.mem_singleton.mp hs]
      decide
  have hiff := (branching_follows_edges_iff hvalid
    (show routeStep "vip" ∈ routeSteps "vip" by simp [routeSteps])).1 rfl hplain
  refine ⟨hvalid, hiff.mpr fun _ => ⟨⟨"vip", rfl, ?_⟩, ⟨"normal", rfl, ?_⟩⟩⟩
  · exact ⟨_, List.mem_cons_self, by decide, by decide, by simp, by decide⟩
  · exact ⟨_, List.mem_cons_of_mem _ List.mem_cons_self, by decide, by decide, by simp, by decide⟩

/-- A context with the tier of a customer. -/
def tierContext : Json := .obj [("trigger", .obj [("body", .obj [("tier", .str "vip")])])]

/-- Configured to go to `end`, the definition is accepted all the same, and when the condition holds
the worker goes to a step to which no edge of `route` leads. -/
theorem route_end_leaves_edges :
    validateGraphV2 JsLib.integers (routeSteps "end") (some routeGraph) = [] ∧
      (resolveValue .integers .strict tierContext (routeStep "end").config).toOption.map
          (ifHandler JsLib.integers false "route") = some (.ok (ifOutput "end" "normal" true)) ∧
      (∀ graph, selectedNextStepKey graph "route" (some (ifOutput "end" "normal" true)) =
        some "end") ∧
      ∀ edge ∈ normalizedEdges (some routeGraph), edge.from? = some "route" →
        edge.to? ≠ some "end" := by
  refine ⟨by decide +kernel, rfl, fun graph => ?_, by decide⟩
  exact selectedNextStepKey_explicit rfl (by decide) graph "route"

end Flowmind
