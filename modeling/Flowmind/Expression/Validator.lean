import Flowmind.Expression.Splitting
import Flowmind.Expression.Resolver

/-!
# Validating the expressions of a configuration

The validator parses the texts of a configuration that have an opening pair of braces, and checks
where their paths lead.  The resolver parses all texts, with the default limits: a closing pair
alone passes the validator and fails at run time, and so does a text that is only within the limits
of the validation.

* `validateExpressionString`, `validateExpressionsInValue` — the validator.
* `outcome_resolveValue` — what can go wrong when a configuration is resolved.
* `validated_resolves_iff` — the validated configurations that never fail to parse;
  `closing_pair_passes`.
-/

namespace Flowmind.Expression

/-! ## Issues -/

inductive IssueCode where
  | syntaxInvalid | namespaceUnknown | segmentForbidden | stepNotAvailable | pathNotFound
  | accessDenied
deriving DecidableEq, Repr

/-- The code of an error that is reported as an issue. -/
def IssueCode.ofError : ExpressionErrorCode → IssueCode
  | .syntaxInvalid => .syntaxInvalid
  | .segmentForbidden => .segmentForbidden
  | .pathNotFound => .pathNotFound

structure ExpressionValidationIssue where
  code : IssueCode
  message : String
  path : Option String
  expression : Option String
  namespaceName : Option String
deriving DecidableEq, Repr

def issue (code : IssueCode) (message expression namespaceName : String) :
    ExpressionValidationIssue where
  code
  message
  expression := some expression
  namespaceName := some namespaceName
  path := some expression

/-- `error.toJSON()`; the parser sets the path to the expression. -/
def errorIssue (e : ExpressionError) : ExpressionValidationIssue where
  code := .ofError e.code
  message := e.message
  path := some e.expression
  expression := some e.expression
  namespaceName := none

/-- The issue, where the condition holds. -/
def issueIf (condition : Bool) (found : ExpressionValidationIssue) :
    List ExpressionValidationIssue :=
  if condition then [found] else []

/-! ## Paths -/

/-- The names that only some steps know. -/
inductive LocalNamespace where
  | item | index | error
deriving DecidableEq, Repr

def LocalNamespace.name : LocalNamespace → String
  | .item => "item"
  | .index => "index"
  | .error => "error"

structure ExpressionValidationContext extends ExpressionParseOptions where
  availableStepKeys : Option (List String) := none
  currentStepKey : Option String := none
  allowMetadata : Option Bool := none
  allowConnection : Option Bool := none
  localNamespaces : Option (List LocalNamespace) := none
deriving DecidableEq, Repr

def namespaces : List String :=
  ["trigger", "workflow", "steps", "execution", "variables", "system", "timestamp", "organization",
    "connection", "metadata"]

def connectionAllowed : List String := ["connection.id", "connection.name", "connection.type"]

def connectionBlocked : List String :=
  ["secret", "secretValue", "password", "apiKey", "encryptedValue", "headers", "additionalHeaders",
    "authName"]

def errorFields : List String :=
  ["message", "category", "code", "stepKey", "executionPath", "retryable", "attempts"]

def triggerPaths : List String :=
  ["trigger.body", "trigger.input", "trigger.headers", "trigger.query", "trigger.method",
    "trigger.receivedAt", "trigger.event"]

def triggerEventFields : List String :=
  ["id", "schemaVersion", "type", "occurredAt", "source", "subject", "correlationId", "rootEventId",
    "causationId", "depth", "data"]

section Validate

variable (context : ExpressionValidationContext)

/-- A segment that is there and not in the list. -/
def isOther (segment : Option String) (known : List String) : Bool :=
  match segment with
  | none => false
  | some segment => segment != "" && !known.contains segment

def validateStepPath (path : ExpressionPath) : List ExpressionValidationIssue :=
  match path.segments[1]?.filter (· ≠ "") with
  | none => [issue .syntaxInvalid "steps expressions must include a step key" path.raw "steps"]
  | some stepKey =>
    issueIf (!(context.availableStepKeys.getD []).contains stepKey)
      (issue .stepNotAvailable
        ("Step \"" ++ stepKey ++ "\" is not available for this expression") path.raw "steps") ++
    issueIf (some stepKey == context.currentStepKey)
      (issue .stepNotAvailable "A step cannot reference its own output" path.raw "steps") ++
    issueIf (isOther path.segments[2]? ["output", "status"])
      (issue .accessDenied "steps expressions must use output.* or status" path.raw "steps")

/-- What the validator finds in one path. -/
def validatePath (path : ExpressionPath) : List ExpressionValidationIssue :=
  let namespaceName := path.segments.headD ""
  let isLocal := ["item", "index", "error"].contains namespaceName
  let available :=
    ((context.localNamespaces.getD []).map LocalNamespace.name).contains namespaceName
  let notAllowed := issue .accessDenied ("Expression path \"" ++ path.raw ++ "\" is not allowed")
    path.raw namespaceName
  if !namespaces.contains namespaceName && !(isLocal && available) then
    [issue .namespaceUnknown ("Unknown expression namespace \"" ++ namespaceName ++ "\"") path.raw
      namespaceName]
  else
    issueIf (isLocal && !available)
      (issue .accessDenied
        ("Expression namespace \"" ++ namespaceName ++ "\" is not available here") path.raw
        namespaceName) ++
    issueIf (namespaceName == "error" && (path.segments.length < 2 ||
        !errorFields.contains (path.segments[1]?.getD "") || 2 < path.segments.length))
      notAllowed ++
    issueIf (namespaceName == "metadata" && context.allowMetadata == some false)
      (issue .accessDenied "metadata.* is legacy-only and is not available here" path.raw
        namespaceName) ++
    issueIf (namespaceName == "connection" && (context.allowConnection == some false ||
        !connectionAllowed.contains path.raw || path.segments.any connectionBlocked.contains))
      notAllowed ++
    (if namespaceName = "steps" then validateStepPath context path else []) ++
    issueIf (namespaceName == "variables" && path.segments.length < 2)
      (issue .syntaxInvalid "variables expressions must include a variable name" path.raw
        namespaceName) ++
    issueIf (namespaceName == "system" && path.segments.length < 2)
      (issue .syntaxInvalid "system expressions must include a field name" path.raw
        namespaceName) ++
    issueIf (namespaceName == "timestamp" && 1 < path.segments.length)
      (issue .accessDenied "timestamp is a scalar namespace and cannot be traversed" path.raw
        namespaceName) ++
    issueIf (namespaceName == "trigger" && !triggerPaths.any fun allowed =>
        path.raw == allowed || (allowed ++ ".").toList.isPrefixOf path.raw.toList)
      (issue .accessDenied "trigger expressions must use an allowed webhook, input, or event path"
        path.raw namespaceName) ++
    issueIf (namespaceName == "trigger" && path.segments[1]? == some "event" &&
        isOther path.segments[2]? triggerEventFields)
      (issue .accessDenied ("Internal event path \"" ++ path.raw ++ "\" is not allowed") path.raw
        namespaceName)

def validatePart : TemplatePart → List ExpressionValidationIssue
  | .text _ => []
  | .expression path => validatePath context path

/-- What the validator finds in a text; an error of the parser is an issue. -/
def validateExpressionString (value : String) : List ExpressionValidationIssue :=
  match parseTemplate context.toExpressionParseOptions value with
  | .error e => [errorIssue e]
  | .ok parsed => parsed.parts.flatMap (validatePart context)

/-! ## Values -/

mutual

/-- The texts of a value, each with its path. -/
def visit (path : String) : Json → List (String × String)
  | .str value => [(value, path)]
  | .arr items => visitItems path 0 items
  | .obj fields => visitFields path fields
  | _ => []

def visitItems (path : String) (index : ℕ) : List Json → List (String × String)
  | [] => []
  | item :: items =>
    visit (path ++ "." ++ toString index) item ++ visitItems path (index + 1) items

def visitFields (path : String) : List (String × Json) → List (String × String)
  | [] => []
  | (key, entry) :: fields => visit (path ++ "." ++ key) entry ++ visitFields path fields

end

/-- The issues of the texts with an opening pair. -/
def validateExpressionsInValue (value : Json) (root : String := "$") :
    List ExpressionValidationIssue :=
  (visit root value).flatMap fun (candidate, path) =>
    if jsIncludes candidate "\x7b\x7b" then
      (validateExpressionString context candidate).map fun entry =>
        { entry with path := some (entry.path.getD path) }
    else []

end Validate

/-! ## The texts of a value -/

mutual

/-- The validator visits every text. -/
lemma map_fst_visit : ∀ (v : Json) (path : String), (visit path v).map Prod.fst = texts v
  | .null, _ | .bool _, _ | .num _, _ | .str _, _ => rfl
  | .arr items, path => map_fst_visitItems items path 0
  | .obj fields, path => map_fst_visitFields fields path

lemma map_fst_visitItems : ∀ (items : List Json) (path : String) (index : ℕ),
    (visitItems path index items).map Prod.fst = textsOfItems items
  | [], _, _ => rfl
  | item :: items, path, index => by
    rw [visitItems, textsOfItems, List.map_append, map_fst_visit item, map_fst_visitItems items]

lemma map_fst_visitFields : ∀ (fields : List (String × Json)) (path : String),
    (visitFields path fields).map Prod.fst = textsOfFields fields
  | [], _ => rfl
  | (key, value) :: fields, path => by
    rw [visitFields, textsOfFields, List.map_append, map_fst_visit value,
      map_fst_visitFields fields]

end

variable {text : String}

/-- A text that has passed with its delimiters is a template. -/
lemma isTemplate_of_validate {context : ExpressionValidationContext} {v : Json} {root : String}
    (h : validateExpressionsInValue context v root = []) (htext : text ∈ texts v)
    (hopen : jsIncludes text "\x7b\x7b" = true) : IsTemplate text := by
  rw [← map_fst_visit v root] at htext
  obtain ⟨⟨_, path⟩, hvisited, rfl⟩ := List.mem_map.mp htext
  have hnone := List.flatMap_eq_nil_iff.mp h _ hvisited
  simp only [hopen, if_true, validateExpressionString] at hnone
  split at hnone
  · cases hnone
  · rename_i parsed hparsed
    exact (parseTemplate_ok_iff.mp hparsed).1

/-! ## Errors at run time -/

/-- How resolving these texts ends: all of them are templates, or one of them is not and its error
is thrown, or in strict mode a path leads nowhere. -/
def Outcome {α : Type} (mode : ExpressionMode) (found : List String) :
    Except ExpressionError α → Prop
  | .ok _ => ∀ text ∈ found, ∃ parsed, parseTemplate {} text = .ok parsed
  | .error e => (∃ text ∈ found, parseTemplate {} text = .error e) ∨
      mode = .strict ∧ e.code = .pathNotFound

section Resolve

variable {js : JsLib} {mode : ExpressionMode} {scope : Json}

variable {α : Type}

/-- One result after the other. -/
lemma Outcome.both {β γ : Type} {found found' : List String} {first : Except ExpressionError α}
    {second : Except ExpressionError β} (combine : α → β → γ) (hfirst : Outcome mode found first)
    (hsecond : Outcome mode found' second) :
    Outcome mode (found ++ found') (first.bind fun a => second.map (combine a)) := by
  cases first with
  | error e =>
    refine hfirst.imp_left fun ⟨text, hmem, hthrows⟩ => ⟨text, ?_, hthrows⟩
    exact List.mem_append_left _ hmem
  | ok a =>
    cases second with
    | error e =>
      refine hsecond.imp_left fun ⟨text, hmem, hthrows⟩ => ⟨text, ?_, hthrows⟩
      exact List.mem_append_right _ hmem
    | ok b =>
      intro text hmem
      exact (List.mem_append.mp hmem).elim (hfirst text) (hsecond text)

lemma Outcome.map {β : Type} {found : List String} {result : Except ExpressionError α} (f : α → β)
    (h : Outcome mode found result) : Outcome mode found (result.map f) := by
  cases result <;> exact h

lemma outcome_pathNotFound (path : ExpressionPath) :
    Outcome .strict [] (pathNotFound path : Except ExpressionError α) :=
  .inr ⟨rfl, rfl⟩

lemma outcome_ok (a : α) : Outcome mode [] (.ok a : Except ExpressionError α) := by
  intro text hmem
  cases hmem

/-- A path that leads nowhere is an error in strict mode only. -/
lemma outcome_interpolatePart (part : TemplatePart) :
    Outcome mode [] (interpolatePart js mode scope part) := by
  cases part with
  | text value => exact outcome_ok value
  | expression path =>
    simp only [interpolatePart]
    cases readPath path.segments scope with
    | none =>
      cases mode with
      | legacy => exact outcome_ok ""
      | strict => exact outcome_pathNotFound path
    | some v =>
      cases v <;> cases mode <;> first | exact outcome_ok _ | exact outcome_pathNotFound path

lemma outcome_interpolate (parts : List TemplatePart) :
    Outcome mode [] (interpolate js mode scope parts) := by
  induction parts with
  | nil => exact outcome_ok ""
  | cons part parts ih =>
    rw [interpolate_cons]
    exact (outcome_interpolatePart part).both _ ih

lemma outcome_resolveTemplate (parsed : ParsedTemplate) :
    Outcome mode [] (resolveTemplate js mode scope parsed) := by
  rw [resolveTemplate]
  split_ifs
  · split
    · rename_i path _ _
      cases readPath path.segments scope with
      | some v => exact outcome_ok v
      | none =>
        cases mode with
        | legacy => exact outcome_ok _
        | strict => exact outcome_pathNotFound path
    · exact outcome_ok _
  · have houtcome : Outcome mode [] (interpolate js mode scope parsed.parts) :=
      outcome_interpolate parsed.parts
    cases hparts : interpolate js mode scope parsed.parts <;> rwa [hparts] at houtcome

lemma outcome_resolveString (text : String) :
    Outcome mode [text] (resolveString js mode scope text) := by
  rw [resolveString]
  cases hparsed : parseTemplate {} text with
  | error e => exact .inl ⟨text, by simp, hparsed⟩
  | ok parsed =>
    have hall : ∀ found ∈ [text], ∃ parsed, parseTemplate {} found = .ok parsed := by
      simp [hparsed]
    dsimp only
    split_ifs
    · exact hall
    · have houtcome : Outcome mode [] (resolveTemplate js mode scope parsed) :=
        outcome_resolveTemplate parsed
      cases hresolved : resolveTemplate js mode scope parsed with
      | ok v => exact hall
      | error e =>
        rw [hresolved] at houtcome
        exact .inr (houtcome.resolve_left (by simp))

mutual

/-- **What can go wrong in a value**: one of its texts is not a template, or in strict mode a path
leads nowhere. -/
lemma outcome_resolveValue : ∀ v : Json, Outcome mode (texts v) (resolveValue js mode scope v)
  | .null | .bool _ | .num _ => outcome_ok _
  | .str text => outcome_resolveString text
  | .arr items => by
    rw [resolveValue_arr]
    exact (outcome_resolveItems items).map _
  | .obj fields => by
    rw [resolveValue_obj]
    exact (outcome_resolveFields fields).map _

lemma outcome_resolveItems : ∀ items : List Json,
    Outcome mode (textsOfItems items) (resolveItems js mode scope items)
  | [] => outcome_ok _
  | item :: items => by
    rw [resolveItems_cons]
    exact (outcome_resolveValue item).both _ (outcome_resolveItems items)

lemma outcome_resolveFields : ∀ fields : List (String × Json),
    Outcome mode (textsOfFields fields) (resolveFields js mode scope fields)
  | [] => outcome_ok _
  | (key, value) :: fields => by
    rw [resolveFields_cons]
    exact (outcome_resolveValue value).both _ (outcome_resolveFields fields)

end

end Resolve

/-! ## Errors of the parser -/

section Codes

variable {options : ExpressionParseOptions} {e : ExpressionError} {raw : String}

lemma syntaxError_code {α : Type} {message : String}
    (h : (syntaxError message raw : Except ExpressionError α) = .error e) :
    e.code ≠ .pathNotFound := by
  cases h
  simp

lemma checkSegment_code {segment : String} (h : checkSegment options raw segment = .error e) :
    e.code ≠ .pathNotFound := by
  rw [checkSegment] at h
  split_ifs at h
  · cases h
    simp
  · exact syntaxError_code h
  · exact syntaxError_code h

lemma checkSegments_code {segments : List String}
    (h : checkSegments options raw segments = .error e) : e.code ≠ .pathNotFound := by
  induction segments with
  | nil => cases h
  | cons segment segments ih =>
    rw [checkSegments] at h
    split at h
    · rename_i hsegment
      cases h
      exact checkSegment_code hsegment
    · exact ih h

lemma parsePath_code (h : parsePath options raw = .error e) : e.code ≠ .pathNotFound := by
  rw [parsePath] at h
  split_ifs at h
  iterate 5 exact syntaxError_code h
  split at h
  · rename_i hsegments
    cases h
    exact checkSegments_code hsegments
  · cases h

lemma parseFound_code {found : List (List Char × List Char)} :
    ∀ {expressionCount : ℕ}, parseFound options expressionCount found = .error e →
      e.code ≠ .pathNotFound := by
  induction found with
  | nil => intro expressionCount h; cases h
  | cons entry found ih =>
    intro expressionCount h
    rw [parseFound] at h
    split_ifs at h
    · exact syntaxError_code h
    · split at h
      · rename_i hpath
        cases h
        exact parsePath_code hpath
      · split at h
        · rename_i hrest
          cases h
          exact ih hrest
        · cases h

/-- **The parser never reports a path that leads nowhere.** -/
lemma parseTemplate_code (h : parseTemplate options text = .error e) : e.code ≠ .pathNotFound := by
  rw [parseTemplate, parseTail] at h
  split at h
  · rename_i hfound
    cases h
    exact parseFound_code hfound
  · split_ifs at h
    exact syntaxError_code h

end Codes

/-! ## Validated configurations -/

/-- The text has no closing pair without an opening one, and is within the default limits. -/
structure Parses (text : String) : Prop where
  closing : jsIncludes text "\x7b\x7b" = false → jsIncludes text "\x7d\x7d" = false
  within : Within {} (scan text.toList).found

lemma resolver_parses_iff :
    (∃ parsed, parseTemplate {} text = .ok parsed) ↔
      IsTemplate text ∧ Within {} (scan text.toList).found := by
  constructor
  · rintro ⟨parsed, hparsed⟩
    obtain ⟨hisTemplate, hwithin, -⟩ := parseTemplate_ok_iff.mp hparsed
    exact ⟨hisTemplate, hwithin⟩
  · rintro ⟨hisTemplate, hwithin⟩
    exact ⟨_, parseTemplate_ok_iff.mpr ⟨hisTemplate, hwithin, rfl⟩⟩

/-- A text without an opening pair is a template if it has no closing pair either. -/
lemma isTemplate_iff_of_no_opening (h : jsIncludes text "\x7b\x7b" = false) :
    IsTemplate text ↔ jsIncludes text "\x7d\x7d" = false := by
  have hopen : findPair '\x7b' text.toList = none := by
    rw [findPair_eq_none_iff, NoPair]
    simpa [jsIncludes] using h
  have hscan : scan text.toList = ⟨[], text.toList⟩ := scan_of_none (by simp [hopen])
  have hclose : findPair '\x7d' text.toList = none ↔ jsIncludes text "\x7d\x7d" = false := by
    rw [findPair_eq_none_iff, NoPair]
    simp [jsIncludes]
  rw [← hclose]
  constructor
  · intro htemplate
    have htail := htemplate.tail
    rw [hscan] at htail
    simpa [plainChars, hopen] using htail
  · intro hnone
    refine ⟨?_, ?_⟩
    · simp [hscan]
    · simp [hscan, plainChars, hopen, hnone]

/-- A text that the validator lets pass is parsed by the resolver, if it has no stray closing pair
and is within the default limits. -/
lemma parses_iff (h : jsIncludes text "\x7b\x7b" = true → IsTemplate text) :
    (∃ parsed, parseTemplate {} text = .ok parsed) ↔ Parses text := by
  rw [resolver_parses_iff]
  cases hopen : jsIncludes text "\x7b\x7b" with
  | true =>
    constructor
    · rintro ⟨-, hwithin⟩
      exact ⟨by simp [hopen], hwithin⟩
    · intro hparses
      exact ⟨h hopen, hparses.within⟩
  | false =>
    rw [isTemplate_iff_of_no_opening hopen]
    constructor
    · rintro ⟨hclosing, hwithin⟩
      exact ⟨fun _ => hclosing, hwithin⟩
    · intro hparses
      exact ⟨hparses.closing hopen, hparses.within⟩

/-- **Which validated configurations never fail to parse.**  If the validator reports nothing, then
whatever the scope and the mode, a path that leads nowhere is the only error of the resolver, if and
only if each text

* has no closing pair, or an opening pair as well;
* is within the default limits, which may be narrower than those of the validation. -/
theorem validated_resolves_iff (js : JsLib) (context : ExpressionValidationContext) (v : Json)
    (h : validateExpressionsInValue context v = []) :
    (∀ mode scope e, resolveValue js mode scope v = .error e → e.code = .pathNotFound) ↔
      ∀ text ∈ texts v, Parses text := by
  have hparses : (∀ text ∈ texts v, Parses text) ↔
      ∀ text ∈ texts v, ∃ parsed, parseTemplate {} text = .ok parsed :=
    forall₂_congr fun text htext => (parses_iff (isTemplate_of_validate h htext)).symm
  rw [hparses]
  constructor
  · intro honly
    have houtcome : Outcome .legacy (texts v) (resolveValue js .legacy .null v) :=
      outcome_resolveValue v
    cases hresolved : resolveValue js .legacy .null v with
    | ok resolved =>
      rw [hresolved] at houtcome
      exact houtcome
    | error e =>
      rw [hresolved] at houtcome
      rcases houtcome with ⟨text, -, hthrows⟩ | ⟨hmode, -⟩
      · exact absurd (honly _ _ _ hresolved) (parseTemplate_code hthrows)
      · cases hmode
  · intro hall mode scope e herror
    have houtcome : Outcome mode (texts v) (resolveValue js mode scope v) :=
      outcome_resolveValue v
    rw [herror] at houtcome
    rcases houtcome with ⟨text, htext, hthrows⟩ | ⟨-, hcode⟩
    · obtain ⟨parsed, hparsed⟩ := hall text htext
      cases hparsed.symm.trans hthrows
    · exact hcode

/-- A text with an expression. -/
def trialText : String := "/orders/\x7b\x7btrigger.body.id\x7d\x7d"

/-- Resolving it fails only where the trigger has no such field. -/
theorem validated_resolves_iff_of_text :
    validateExpressionsInValue {} (.obj [("url", .str trialText)]) = [] ∧
    ∀ mode scope e, resolveValue JsLib.integers mode scope (.obj [("url", .str trialText)]) =
      .error e → e.code = .pathNotFound := by
  have hvalid : validateExpressionsInValue {} (.obj [("url", .str trialText)]) = [] := by
    decide +kernel
  refine ⟨hvalid, (validated_resolves_iff JsLib.integers {} _ hvalid).mpr fun text htext => ?_⟩
  have hparsed : parseTemplate {} trialText = .ok ⟨trialText,
      [.text "/orders/", .expression ⟨"trigger.body.id", ["trigger", "body", "id"]⟩], 1, false⟩ := by
    decide +kernel
  obtain rfl : text = trialText := List.mem_singleton.mp htext
  exact ⟨by decide +kernel, (resolver_parses_iff.mp ⟨_, hparsed⟩).2⟩

/-- A closing pair alone passes the validator, and the resolver takes it for an error of syntax. -/
theorem closing_pair_passes :
    validateExpressionsInValue {} (.str "a \x7d\x7d b") = [] ∧
      resolveValue JsLib.integers .legacy (.obj []) (.str "a \x7d\x7d b") =
        syntaxError "Invalid expression delimiters" "a \x7d\x7d b" := by
  have hthrows : parseTemplate {} "a \x7d\x7d b" =
      syntaxError "Invalid expression delimiters" "a \x7d\x7d b" := by
    decide +kernel
  refine ⟨by decide +kernel, ?_⟩
  rw [resolveValue, resolveString, hthrows]
  rfl

end Flowmind.Expression
