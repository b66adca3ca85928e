import Flowmind.Js.Value

/-!
# Checks of a step's configuration

The part of the validation of a workflow definition that looks at one step at a time and at its
configuration only: loops, delays, subworkflow calls and approvals.  A check returns the issues it
reports, in the order in which the source pushes them.
-/

namespace Flowmind

/-- The step types. -/
inductive StepType where
  | webhookTrigger | httpRequest | aiClassification | aiStructuredExtraction | aiSummary
  | conditional | «if» | switch | delay | waitUntil | emailNotification | databaseRecord | transform
  | dataStoreGetRecord | dataStoreUpsertRecord | dataStoreDeleteRecord | dataStoreExistsRecord
  | dataStoreCountRecords | dataStoreListRecords
  | setVariable | getVariable | deleteVariable | incrementVariable | appendVariable
  | forEach | tryCatch | executeWorkflow | returnWorkflowOutput | subworkflowTrigger | approval
  /-- A type the program does not know. -/
  | other (name : String)
deriving DecidableEq, Repr

/-- How a type is written in a definition. -/
def StepType.name : StepType → String
  | webhookTrigger => "webhook_trigger"
  | httpRequest => "http_request"
  | aiClassification => "ai_classification"
  | aiStructuredExtraction => "ai_structured_extraction"
  | aiSummary => "ai_summary"
  | conditional => "conditional"
  | «if» => "if"
  | switch => "switch"
  | delay => "delay"
  | waitUntil => "wait_until"
  | emailNotification => "email_notification"
  | databaseRecord => "database_record"
  | transform => "transform"
  | dataStoreGetRecord => "data_store_get_record"
  | dataStoreUpsertRecord => "data_store_upsert_record"
  | dataStoreDeleteRecord => "data_store_delete_record"
  | dataStoreExistsRecord => "data_store_exists_record"
  | dataStoreCountRecords => "data_store_count_records"
  | dataStoreListRecords => "data_store_list_records"
  | setVariable => "set_variable"
  | getVariable => "get_variable"
  | deleteVariable => "delete_variable"
  | incrementVariable => "increment_variable"
  | appendVariable => "append_variable"
  | forEach => "for_each"
  | tryCatch => "try_catch"
  | executeWorkflow => "execute_workflow"
  | returnWorkflowOutput => "return_workflow_output"
  | subworkflowTrigger => "subworkflow_trigger"
  | approval => "approval"
  | other name => name

/-- The types the program knows. -/
def StepType.known : List StepType :=
  [webhookTrigger, httpRequest, aiClassification, aiStructuredExtraction, aiSummary, conditional, «if»,
    switch, delay, waitUntil, emailNotification, databaseRecord, transform, dataStoreGetRecord,
    dataStoreUpsertRecord, dataStoreDeleteRecord, dataStoreExistsRecord, dataStoreCountRecords,
    dataStoreListRecords, setVariable, getVariable, deleteVariable, incrementVariable, appendVariable,
    forEach, tryCatch, executeWorkflow, returnWorkflowOutput, subworkflowTrigger, approval]

def StepType.ofName (name : String) : StepType :=
  (known.find? fun type => decide (type.name = name)).getD (other name)

/-- A step of a definition. -/
structure GraphStepLike where
  id : Option String
  key : String
  type : StepType
  /-- An object. -/
  config : Json

/-- A reported issue; the severity of all of them is `error`. -/
structure GraphValidationIssue where
  code : String
  message : String
  stepKey : Option String
  edgeId : Option String
  handle : Option String
deriving DecidableEq, Repr

/-- An empty key, edge or handle is left out. -/
def issue (code message : String) (stepKey edgeId handle : Option String := none) :
    GraphValidationIssue where
  code := code
  message := message
  stepKey := stepKey.filter fun s => decide (s ≠ "")
  edgeId := edgeId.filter fun s => decide (s ≠ "")
  handle := handle.filter fun s => decide (s ≠ "")

/-- `issues.push(…)` under a condition. -/
def issueIf (condition : Bool) (reported : GraphValidationIssue) : List GraphValidationIssue :=
  if condition then [reported] else []

@[simp] lemma issueIf_eq_nil {condition : Bool} {reported : GraphValidationIssue} :
    issueIf condition reported = [] ↔ condition = false := by
  cases condition <;> simp [issueIf]

/-- The number is an integer between the bounds. -/
def integerBetween (low high : ℤ) (value : Option ℚ) : Bool :=
  match value with
  | some q => decide (q.den = 1) && decide (low ≤ q.num) && decide (q.num ≤ high)
  | none => false

/-! ## Loops -/

/-- `/^[A-Za-z_][A-Za-z0-9_-]{0,63}$/`. -/
def isAliasName (name : String) : Bool :=
  match name.toList with
  | [] => false
  | first :: rest =>
    (first.isAlpha || first == '_') && decide (rest.length ≤ 63) &&
      rest.all fun c => c.isAlphanum || c == '_' || c == '-'

def validateForEachConfig (js : JsLib) (step : GraphStepLike) : List GraphValidationIssue :=
  let config := step.config
  let aliases := [config.get? "itemVariable", config.get? "indexVariable"].filterMap fun value =>
    (Json.asString? value).filter fun name => decide (name ≠ "")
  issueIf (Json.strictEq false (config.get? "source") none ||
      Json.strictEq false (config.get? "source") (some .null) ||
      Json.strictEq false (config.get? "source") (some (.str "")))
    (issue "invalid_for_each_source" "FOR_EACH Source is required." step.key) ++
  issueIf (!Json.strictEq false (config.get? "mode") none &&
      !Json.strictEq false (config.get? "mode") (some (.str "SEQUENTIAL")))
    (issue "invalid_for_each_mode" "FOR_EACH only supports SEQUENTIAL mode." step.key) ++
  issueIf ((config.get? "concurrency").any fun value => decide (value.toNumber js ≠ some 1))
    (issue "invalid_for_each_concurrency" "FOR_EACH concurrency must be 1." step.key) ++
  issueIf (!integerBetween 0 1000 ((Json.orElse (config.get? "maxItems") (.num 100)).toNumber js))
    (issue "invalid_for_each_max_items"
      "FOR_EACH maxItems must be an integer between 0 and 1000." step.key) ++
  issueIf (!integerBetween 0 100 ((Json.orElse (config.get? "maxResults") (.num 20)).toNumber js))
    (issue "invalid_for_each_max_results"
      "FOR_EACH maxResults must be an integer between 0 and 100." step.key) ++
  issueIf (decide (¬ aliases.Nodup))
    (issue "duplicate_for_each_alias" "FOR_EACH item and index aliases must be different."
      step.key) ++
  aliases.flatMap fun name =>
    issueIf (!isAliasName name ||
        decide (name ∈ ["item", "index", "__proto__", "prototype", "constructor"]))
      (issue "invalid_for_each_alias" "FOR_EACH aliases must be safe variable names." step.key)

/-! ## Waiting -/

/-- `/^\s*([1-9][0-9]*)\s+(second|seconds|minute|minutes|hour|hours)\s*$/i`. -/
def isDuration (duration : String) : Bool :=
  let afterSpace := duration.toList.dropWhile isJsSpace
  let digits := afterSpace.takeWhile Char.isDigit
  let rest := afterSpace.dropWhile Char.isDigit
  digits.head?.any (fun c => decide (c ≠ '0')) && rest.head?.any isJsSpace &&
    decide (jsToLowerCase (jsTrim (String.ofList rest)) ∈
      ["second", "seconds", "minute", "minutes", "hour", "hours"])

/-- The text holds an expression, which is only known when the step runs. -/
def hasExpression (text : String) : Bool := jsIncludes text "\x7b\x7b"

def validateDelay (step : GraphStepLike) : List GraphValidationIssue :=
  match step.config.get? "duration" with
  | some (.num q) =>
    issueIf (decide (q ≤ 0))
      (issue "invalid_delay_duration" "Delay duration must be positive." step.key)
  | some (.str s) =>
    issueIf (!hasExpression s && !isDuration s)
      (issue "invalid_delay_duration" "Delay duration must use seconds, minutes, or hours."
        step.key)
  | _ => [issue "invalid_delay_duration" "Delay duration is required." step.key]

def validateWaitUntil (js : JsLib) (step : GraphStepLike) : List GraphValidationIssue :=
  match step.config.get? "timestamp" with
  | some (.str s) =>
    if jsTrim s = "" then
      [issue "invalid_wait_until_timestamp" "Wait Until timestamp is required." step.key]
    else
      issueIf (!hasExpression s && (js.dateParse s).isNone)
        (issue "invalid_wait_until_timestamp" "Wait Until timestamp is invalid." step.key)
  | _ => [issue "invalid_wait_until_timestamp" "Wait Until timestamp is required." step.key]

/-! ## Subworkflow calls -/

def validateExecuteWorkflow (js : JsLib) (step : GraphStepLike) : List GraphValidationIssue :=
  let policy := stringValue (step.config.get? "versionPolicy")
  issueIf (stringValue (step.config.get? "workflowId")).isNone
    (issue "invalid_subworkflow" "EXECUTE_WORKFLOW requires a workflow." step.key) ++
  issueIf (decide (policy ≠ some "PUBLISHED") && decide (policy ≠ some "PINNED_VERSION"))
    (issue "invalid_subworkflow_policy" "EXECUTE_WORKFLOW version policy is invalid." step.key) ++
  issueIf (decide (policy = some "PINNED_VERSION") &&
      (stringValue (step.config.get? "workflowVersionId")).isNone)
    (issue "invalid_subworkflow_version" "Pinned policy requires a workflow version." step.key) ++
  issueIf (!integerBetween 1 120
      ((Json.orElse (step.config.get? "timeoutSeconds") (.num 120)).toNumber js))
    (issue "invalid_subworkflow_timeout"
      "EXECUTE_WORKFLOW timeout must be between 1 and 120 seconds." step.key)

/-! ## Approvals -/

/-- The roles that may be allowed to decide an approval. -/
def approvalAllowedRoles : List String := ["editor", "admin", "owner"]

/-- The configuration of an approval step, in normal form. -/
structure ApprovalConfig where
  title : String
  description : Option String
  summary : Option String
  expirationSeconds : Option ℚ
  allowedRoles : List String
deriving DecidableEq, Repr

/-- `s.replace(/<[^>]*>/g, "")`, with fuel for the characters. -/
def stripTags : ℕ → List Char → List Char
  | 0, cs => cs
  | _ + 1, [] => []
  | fuel + 1, c :: cs =>
    if c = '<' ∧ '>' ∈ cs then stripTags fuel ((cs.dropWhile fun d => d != '>').drop 1)
    else c :: stripTags fuel cs

/-- A text field without control characters and tags, trimmed and cut. -/
def approvalText (value : Option Json) (max : ℕ) : String :=
  match Json.asString? value with
  | none => ""
  | some s =>
    let cleaned := s.toList.map fun c => if c.toNat ≤ 0x1f ∨ c.toNat = 0x7f then ' ' else c
    let trimmed := jsTrim (String.ofList (stripTags cleaned.length cleaned))
    utf16Slice trimmed max

def normalizeApprovalConfig (js : JsLib) (value : Json) : Except String ApprovalConfig :=
  let title := approvalText (value.get? "title") 160
  let description := approvalText (value.get? "description") 2000
  let summary := approvalText (value.get? "summary") 4000
  let expiration := value.get? "expirationSeconds"
  let expirationGiven := !(Json.strictEq false expiration none ||
    Json.strictEq false expiration (some .null) || Json.strictEq false expiration (some (.str "")))
  let expirationSeconds := expiration.bind (·.toNumber js)
  let roles := match Json.asArray? (value.get? "allowedRoles") with
    | some items => items.map (Json.toJsString js)
    | none => approvalAllowedRoles
  if title = "" then .error "APPROVAL title is required"
  else if expirationGiven && !integerBetween 1 (365 * 24 * 60 * 60) expirationSeconds then
    .error "APPROVAL expiration is invalid"
  else if roles.isEmpty || roles.any fun role => decide (role ∉ approvalAllowedRoles) then
    .error "APPROVAL allowed roles are invalid"
  else .ok
    { title
      description := if description = "" then none else some description
      summary := if summary = "" then none else some summary
      expirationSeconds := if expirationGiven then expirationSeconds else none
      allowedRoles := roles.foldl setAdd [] }

end Flowmind
