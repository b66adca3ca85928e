import Flowmind.Engine.StepExecutor
import Flowmind.Expression.Resolver
import Flowmind.Expression.Splitting

/-!
# The configuration a handler acts on

The step executor resolves the configuration of a step before it calls the handler.  The handlers of
HTTP requests, emails, database records, AI steps and conditions resolve what they are given once
more, always in legacy mode.  So a text that came out of the context, from a webhook caller for
example, is read as a template itself.

Nothing happens the second time if the first one leaves no delimiters.  An expression that stands
alone is replaced by a value of the context, with the texts of that value; in a longer text the
values are written between the texts of the configuration, and a delimiter may also arise from two
single braces that come together.

* `actedConfig` — what such a handler acts on.
* `Harmless` — the texts that get no delimiters from the context; `plain_of_resolveValue`.
* `resolveValue_congr` — what is resolved only depends on what the expressions read.
* `acted_config_once` — without delimiters in what is inserted, the handler acts on the configuration
  resolved once, and on nothing of the context that the configuration does not name.
-/

namespace Flowmind

open Expression

/-- The mode of an execution, from its context. -/
def expressionMode (context : Json) : ExpressionMode :=
  if Json.strictEq false (Json.field (context.get? "metadata") "expressionMode")
    (some (.str "strict")) then .strict else .legacy

/-- What the step executor gives to the handler. -/
def resolvedConfig (js : JsLib) (context : Json) (step : StepDefinition) :
    Except ExpressionError Json :=
  if resolvesOwnConfig step.type then .ok step.config
  else resolveValue js (expressionMode context) context step.config

/-- These handlers resolve what they are given. -/
def resolvesAgain : StepType → Bool
  | .httpRequest | .emailNotification | .databaseRecord | .aiClassification | .aiStructuredExtraction
  | .aiSummary | .conditional => true
  | _ => false

/-- What a handler makes of the configuration it is given, before it acts. -/
def handlerConfig (js : JsLib) (context : Json) (type : StepType) (config : Json) :
    Except ExpressionError Json :=
  if resolvesAgain type then resolveValue js .legacy context config else .ok config

/-- What the handler of a step acts on. -/
def actedConfig (js : JsLib) (context : Json) (step : StepDefinition) : Except ExpressionError Json :=
  match resolvedConfig js context step with
  | .error e => .error e
  | .ok config => handlerConfig js context step.type config

/-- A step whose handler resolves again has been resolved by the executor. -/
lemma resolvedConfig_of_resolvesAgain {js : JsLib} {context : Json} {step : StepDefinition}
    (htype : resolvesAgain step.type = true) :
    resolvedConfig js context step =
      resolveValue js (expressionMode context) context step.config := by
  have hown : resolvesOwnConfig step.type = false := by
    cases htypes : step.type <;> simp_all [resolvesAgain, resolvesOwnConfig]
  simp [resolvedConfig, hown]

/-! ## What is inserted -/

/-- No delimiter in the text, and none arises where such texts are put together. -/
structure Framed (s : String) : Prop where
  plain : Plain s
  first : s.toList.head? ≠ some '\x7d'
  last : s.toList.getLast? ≠ some '\x7b'

instance (s : String) : Decidable (Framed s) :=
  decidable_of_iff (Plain s ∧ s.toList.head? ≠ some '\x7d' ∧ s.toList.getLast? ≠ some '\x7b')
    ⟨fun h => ⟨h.1, h.2.1, h.2.2⟩, fun h => ⟨h.plain, h.first, h.last⟩⟩

lemma Framed.append {s t : String} (hs : Framed s) (ht : Framed t) : Framed (s ++ t) where
  plain := by
    have hsplain := plainChars_iff.mp hs.plain
    have htplain := plainChars_iff.mp ht.plain
    rw [Plain, String.toList_append, plainChars_iff]
    exact ⟨hsplain.1.append htplain.1 fun hlast => absurd hlast hs.last,
      hsplain.2.append htplain.2 fun _ => ht.first⟩
  first := by
    rw [String.toList_append, List.head?_append]
    have hfirst := hs.first
    cases hhead : s.toList.head? with
    | none => exact ht.first
    | some c => rwa [hhead] at hfirst
  last := by
    rw [String.toList_append, List.getLast?_append]
    have hend := ht.last
    cases hlast : t.toList.getLast? with
    | none => exact hs.last
    | some c => rwa [hlast] at hend

/-- The part is a text, or writes a value, that makes no delimiters. -/
def PartFramed (js : JsLib) (scope : Json) : TemplatePart → Prop
  | .text value => Framed value
  | .expression path => ∀ v, readPath path.segments scope = some v →
      Framed (stringifyInterpolated js v)

/-- A text of a configuration that gets no delimiters from the context. -/
inductive Harmless (js : JsLib) (scope : Json) (s : String) : Prop where
  | plain (h : Plain s)
  | single {path : ExpressionPath} (hparts : (templateOf s).parts = [.expression path])
      (h : ∀ v, readPath path.segments scope = some v → ∀ t ∈ texts v, Plain t)
  | longer (hlonger : (templateOf s).isSingleExpression = false)
      (h : ∀ part ∈ (templateOf s).parts, PartFramed js scope part)

section Inserted

variable {js : JsLib} {mode : ExpressionMode} {scope : Json} {s : String} {resolved : Json}

lemma framed_of_interpolatePart {part : TemplatePart} {written : String}
    (h : interpolatePart js mode scope part = .ok written) (hpart : PartFramed js scope part) :
    Framed written := by
  have hempty : Framed "" := by decide
  cases part with
  | text value =>
    cases h
    exact hpart
  | expression path =>
    simp only [interpolatePart] at h
    cases hread : readPath path.segments scope with
    | none =>
      rw [hread] at h
      cases mode <;> cases h
      exact hempty
    | some v =>
      have hframed := hpart v hread
      rw [hread] at h
      cases v <;> cases mode <;> cases h <;> first | exact hempty | exact hframed

lemma framed_of_interpolate {parts : List TemplatePart} {output : String}
    (h : interpolate js mode scope parts = .ok output)
    (hparts : ∀ part ∈ parts, PartFramed js scope part) : Framed output := by
  induction parts generalizing output with
  | nil =>
    cases h
    decide
  | cons part parts ih =>
    rw [interpolate_cons] at h
    obtain ⟨written, hwritten, h⟩ := exists_of_bind_eq_ok h
    obtain ⟨rest, hrest, rfl⟩ := exists_of_map_eq_ok h
    rw [List.forall_mem_cons] at hparts
    exact (framed_of_interpolatePart hwritten hparts.1).append (ih hrest hparts.2)

/-- What a text becomes has no delimiters. -/
lemma plain_of_resolveString (h : resolveString js mode scope s = .ok resolved)
    (hs : Harmless js scope s) : ∀ t ∈ texts resolved, Plain t := by
  have hself : Plain s → ∀ t ∈ texts (.str s), Plain t := fun hplain t ht =>
    (List.mem_singleton.mp ht) ▸ hplain
  unfold resolveString at h
  cases hparsed : parseTemplate {} s with
  | error e => simp [hparsed] at h
  | ok parsed =>
    simp only [hparsed] at h
    split_ifs at h with hcount
    · cases h
      exact hself ((expressionCount_eq_zero_iff hparsed).mp hcount)
    · obtain ⟨-, -, rfl⟩ := parseTemplate_ok_iff.mp hparsed
      unfold resolveTemplate at h
      cases hs with
      | plain hplain => exact absurd ((expressionCount_eq_zero_iff hparsed).mpr hplain) hcount
      | @single path hparts hvalue =>
        have hsingle : (templateOf s).isSingleExpression = true := congrArg isSingle hparts
        simp only [hsingle, hparts, if_true] at h
        cases hread : readPath path.segments scope with
        | some v =>
          rw [hread] at h
          cases h
          exact hvalue _ hread
        | none =>
          rw [hread] at h
          cases mode <;> cases h
          intro t ht
          rw [List.mem_singleton.mp ht]
          decide
      | longer hlonger hparts =>
        simp only [hlonger, Bool.false_eq_true, if_false] at h
        cases hwritten : interpolate js mode scope (templateOf s).parts with
        | error e => simp [hwritten] at h
        | ok output =>
          rw [hwritten] at h
          cases h
          intro t ht
          rw [List.mem_singleton.mp ht]
          exact (framed_of_interpolate hwritten hparts).plain

mutual

/-- **What a configuration becomes has no delimiters**, if its texts get none from the context. -/
lemma plain_of_resolveValue : ∀ {v resolved : Json}, resolveValue js mode scope v = .ok resolved →
    (∀ s ∈ texts v, Harmless js scope s) → ∀ t ∈ texts resolved, Plain t
  | .null, _, h, _ | .bool _, _, h, _ | .num _, _, h, _ => by
    cases h
    exact fun t ht => absurd ht List.not_mem_nil
  | .str s, _, h, hv => plain_of_resolveString h (hv s (List.mem_singleton_self s))
  | .arr items, _, h, hv => by
    rw [resolveValue_arr] at h
    obtain ⟨rest, hrest, rfl⟩ := exists_of_map_eq_ok h
    exact plain_of_resolveItems hrest hv
  | .obj fields, _, h, hv => by
    rw [resolveValue_obj] at h
    obtain ⟨rest, hrest, rfl⟩ := exists_of_map_eq_ok h
    exact plain_of_resolveFields hrest hv

lemma plain_of_resolveItems : ∀ {items resolved : List Json},
    resolveItems js mode scope items = .ok resolved →
    (∀ s ∈ textsOfItems items, Harmless js scope s) → ∀ t ∈ textsOfItems resolved, Plain t
  | [], _, h, _ => by
    cases h
    exact fun t ht => absurd ht List.not_mem_nil
  | item :: items, _, h, hitems => by
    rw [textsOfItems, List.forall_mem_append] at hitems
    rw [resolveItems_cons] at h
    obtain ⟨first, hfirst, h⟩ := exists_of_bind_eq_ok h
    obtain ⟨rest, hrest, rfl⟩ := exists_of_map_eq_ok h
    rw [textsOfItems, List.forall_mem_append]
    exact ⟨plain_of_resolveValue hfirst hitems.1, plain_of_resolveItems hrest hitems.2⟩

lemma plain_of_resolveFields : ∀ {fields resolved : List (String × Json)},
    resolveFields js mode scope fields = .ok resolved →
    (∀ s ∈ textsOfFields fields, Harmless js scope s) → ∀ t ∈ textsOfFields resolved, Plain t
  | [], _, h, _ => by
    cases h
    exact fun t ht => absurd ht List.not_mem_nil
  | (key, value) :: fields, _, h, hfields => by
    rw [textsOfFields, List.forall_mem_append] at hfields
    rw [resolveFields_cons] at h
    obtain ⟨first, hfirst, h⟩ := exists_of_bind_eq_ok h
    obtain ⟨rest, hrest, rfl⟩ := exists_of_map_eq_ok h
    rw [textsOfFields, List.forall_mem_append]
    exact ⟨plain_of_resolveValue hfirst hfields.1, plain_of_resolveFields hrest hfields.2⟩

end

end Inserted

/-! ## What is read -/

/-- The expressions of a text. -/
def pathsOf (s : String) : List ExpressionPath :=
  (templateOf s).parts.filterMap fun
    | .text _ => none
    | .expression path => some path

/-- The contexts are the same to the expressions of these texts. -/
def SameFor (found : List String) (scope scope' : Json) : Prop :=
  ∀ s ∈ found, ∀ path ∈ pathsOf s, readPath path.segments scope' = readPath path.segments scope

section Read

variable {js : JsLib} {mode : ExpressionMode} {scope scope' : Json}

lemma mem_pathsOf {s : String} {path : ExpressionPath}
    (h : .expression path ∈ (templateOf s).parts) : path ∈ pathsOf s :=
  List.mem_filterMap.mpr ⟨_, h, rfl⟩

lemma interpolate_congr {parts : List TemplatePart}
    (h : ∀ path, .expression path ∈ parts →
      readPath path.segments scope' = readPath path.segments scope) :
    interpolate js mode scope' parts = interpolate js mode scope parts := by
  induction parts with
  | nil => rfl
  | cons part parts ih =>
    have hpart : interpolatePart js mode scope' part = interpolatePart js mode scope part := by
      cases part with
      | text value => rfl
      | expression path => simp only [interpolatePart, h path List.mem_cons_self]
    rw [interpolate_cons, interpolate_cons, hpart,
      ih fun path hmem => h path (List.mem_cons_of_mem _ hmem)]

lemma resolveString_congr {s : String} (h : SameFor [s] scope scope') :
    resolveString js mode scope' s = resolveString js mode scope s := by
  have hread : ∀ path, .expression path ∈ (templateOf s).parts →
      readPath path.segments scope' = readPath path.segments scope := fun path hmem =>
    h s (List.mem_singleton_self s) path (mem_pathsOf hmem)
  unfold resolveString
  cases hparsed : parseTemplate {} s with
  | error e => rfl
  | ok parsed =>
    obtain ⟨-, -, rfl⟩ := parseTemplate_ok_iff.mp hparsed
    simp only [resolveTemplate, interpolate_congr hread]
    cases hparts : (templateOf s).parts with
    | nil => rfl
    | cons part parts =>
      cases part with
      | text value => rfl
      | expression path => simp only [hread path (hparts ▸ List.mem_cons_self)]

mutual

/-- **What is resolved only depends on what the expressions read.** -/
lemma resolveValue_congr : ∀ {v : Json}, SameFor (texts v) scope scope' →
    resolveValue js mode scope' v = resolveValue js mode scope v
  | .null, _ | .bool _, _ | .num _, _ => rfl
  | .str _, h => resolveString_congr h
  | .arr items, h => by rw [resolveValue_arr, resolveValue_arr, resolveItems_congr h]
  | .obj fields, h => by rw [resolveValue_obj, resolveValue_obj, resolveFields_congr h]

lemma resolveItems_congr : ∀ {items : List Json}, SameFor (textsOfItems items) scope scope' →
    resolveItems js mode scope' items = resolveItems js mode scope items
  | [], _ => rfl
  | item :: items, h => by
    rw [textsOfItems, SameFor, List.forall_mem_append] at h
    rw [resolveItems_cons, resolveItems_cons, resolveValue_congr h.1, resolveItems_congr h.2]

lemma resolveFields_congr : ∀ {fields : List (String × Json)},
    SameFor (textsOfFields fields) scope scope' →
    resolveFields js mode scope' fields = resolveFields js mode scope fields
  | [], _ => rfl
  | (key, value) :: fields, h => by
    rw [textsOfFields, SameFor, List.forall_mem_append] at h
    rw [resolveFields_cons, resolveFields_cons, resolveValue_congr h.1, resolveFields_congr h.2]

end

lemma Harmless.congr {s : String} (h : Harmless js scope s) (hsame : SameFor [s] scope scope') :
    Harmless js scope' s := by
  have hread : ∀ path, .expression path ∈ (templateOf s).parts →
      readPath path.segments scope' = readPath path.segments scope := fun path hmem =>
    hsame s (List.mem_singleton_self s) path (mem_pathsOf hmem)
  cases h with
  | plain h => exact .plain h
  | @single path hparts h =>
    refine .single hparts fun v hv => h v ?_
    rwa [← hread path (hparts ▸ List.mem_singleton_self _)]
  | longer hlonger h =>
    refine .longer hlonger fun part hmem => ?_
    have hpart := h part hmem
    cases part with
    | text value => exact hpart
    | expression path =>
      intro v hv
      exact hpart v (by rwa [← hread path hmem])

end Read

lemma actedConfig_eq {js : JsLib} {context : Json} {step : StepDefinition}
    (htype : resolvesAgain step.type = true)
    (h : ∀ s ∈ texts step.config, Harmless js context s) :
    actedConfig js context step =
      resolveValue js (expressionMode context) context step.config := by
  rw [actedConfig, resolvedConfig_of_resolvesAgain htype]
  cases honce : resolveValue js (expressionMode context) context step.config with
  | error e => rfl
  | ok once =>
    simp only [handlerConfig, htype, if_true]
    exact resolveValue_plain (plain_of_resolveValue honce h)

/-- **Runtime data is not evaluated**, if the texts of the configuration get no delimiters from it: the
handler acts on the configuration resolved once, and does the same in every context of the mode in
which the expressions of the stored configuration read the same. -/
theorem acted_config_once {js : JsLib} {context : Json} {step : StepDefinition}
    (htype : resolvesAgain step.type = true)
    (h : ∀ s ∈ texts step.config, Harmless js context s) :
    actedConfig js context step = resolveValue js (expressionMode context) context step.config ∧
    ∀ context', expressionMode context' = expressionMode context →
      SameFor (texts step.config) context context' →
      actedConfig js context' step = actedConfig js context step := by
  refine ⟨actedConfig_eq htype h, fun context' hmode hsame => ?_⟩
  have hother : ∀ s ∈ texts step.config, Harmless js context' s := fun s hs =>
    (h s hs).congr fun _ ht => hsame _ (List.mem_singleton.mp ht ▸ hs)
  rw [actedConfig_eq htype h, actedConfig_eq htype hother, hmode, resolveValue_congr hsame]

/-! ### Data of a webhook caller -/

/-- A request that passes on a name from the webhook's body. -/
def forwardStep : StepDefinition where
  key := "forward"
  type := .httpRequest
  position := 1
  config := .obj [("body", .str "\x7b\x7b trigger.body.name \x7d\x7d")]
  retryPolicy := none

/-- A context with a variable of the organisation. -/
def callerContext (name : String) : Json :=
  .obj [("trigger", .obj [("body", .obj [("name", .str name)])]),
    ("organization", .obj [("variables", .obj [("region", .str "internal-7")])])]

/-- The body of a request with this configuration. -/
def bodyOf (config : Except ExpressionError Json) : Except ExpressionError (Option String) :=
  config.map fun config => Json.asString? (config.get? "body")

/-- The configuration resolved once. -/
def forwardOnce (name : String) : Except ExpressionError Json :=
  resolveValue .integers (expressionMode (callerContext name)) (callerContext name)
    forwardStep.config

/-- A request with an expression in a longer text, and one that stands for an object. -/
def greetStep : StepDefinition where
  key := "greet"
  type := .httpRequest
  position := 1
  config := .obj [("url", .str "/greet?name=\x7b\x7b trigger.body.name \x7d\x7d&short"),
    ("body", .str "\x7b\x7btrigger.body\x7d\x7d")]
  retryPolicy := none

lemma parts_greet_url : (templateOf "/greet?name=\x7b\x7b trigger.body.name \x7d\x7d&short").parts =
    [.text "/greet?name=", .expression ⟨"trigger.body.name", ["trigger", "body", "name"]⟩,
      .text "&short"] := by
  decide +kernel

lemma parts_greet_body : (templateOf "\x7b\x7btrigger.body\x7d\x7d").parts =
    [.expression ⟨"trigger.body", ["trigger", "body"]⟩] := by
  decide +kernel

/-- A name without delimiters is passed on, whatever else is in the context. -/
theorem greet_plain_name :
    actedConfig .integers (callerContext "Ada") greetStep =
      .ok (.obj [("url", .str "/greet?name=Ada&short"),
        ("body", .obj [("name", .str "Ada")])]) ∧
    actedConfig .integers (.obj [("trigger", .obj [("body", .obj [("name", .str "Ada")])])])
      greetStep = actedConfig .integers (callerContext "Ada") greetStep := by
  have hframed : Framed "/greet?name=" ∧ Framed "Ada" ∧ Framed "&short" := by decide
  have hharmless : ∀ s ∈ texts greetStep.config, Harmless .integers (callerContext "Ada") s := by
    intro s hs
    rcases List.mem_cons.mp hs with rfl | hs
    · refine .longer (by decide +kernel) fun part hmem => ?_
      rw [parts_greet_url] at hmem
      simp only [List.mem_cons, List.not_mem_nil, or_false] at hmem
      rcases hmem with rfl | rfl | rfl
      · exact hframed.1
      · rintro v ⟨⟩
        exact hframed.2.1
      · exact hframed.2.2
    · rw [List.mem_singleton.mp hs]
      refine .single parts_greet_body ?_
      rintro v ⟨⟩ t ht
      rw [List.mem_singleton.mp ht]
      exact hframed.2.1.plain
  obtain ⟨honce, hsame⟩ := @acted_config_once _ _ greetStep rfl hharmless
  refine ⟨honce.trans rfl, hsame _ (by decide) fun s hs path hpath => ?_⟩
  rcases List.mem_cons.mp hs with rfl | hs
  · rw [pathsOf, parts_greet_url] at hpath
    rw [List.mem_singleton.mp hpath]
    rfl
  · rw [List.mem_singleton.mp hs, pathsOf, parts_greet_body] at hpath
    rw [List.mem_singleton.mp hpath]
    rfl

/-- A caller whose name is an expression reads a variable of the organisation; one whose name only
looks like one does not. -/
theorem forward_expression_read :
    let expression := "\x7b\x7borganization.variables.region\x7d\x7d"
    let escaped := "\x7b organization.variables.region \x7d"
    bodyOf (forwardOnce expression) = .ok (some expression) ∧
      bodyOf (actedConfig .integers (callerContext expression) forwardStep) =
        .ok (some "internal-7") ∧
      bodyOf (forwardOnce escaped) = .ok (some escaped) ∧
      bodyOf (actedConfig .integers (callerContext escaped) forwardStep) = .ok (some escaped) := by
  decide +kernel

end Flowmind
