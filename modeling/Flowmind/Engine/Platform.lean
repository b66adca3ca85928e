import Flowmind.Engine.Rows
import Flowmind.Graph.RuntimeGraph

/-!
# What a worker knows about an execution

The definition an execution runs (it never changes once the execution exists), the retry policy of a
step, the errors the engine throws and the parts of the surroundings that are taken as given.
-/

namespace Flowmind

/-! ## Steps -/

/-- A step as the engine runs it. -/
structure StepDefinition where
  key : String
  type : StepType
  position : ℤ
  config : Json
  retryPolicy : Option Json

/-- The definition of an execution: its JSON, from which the graph is read, and its steps.  The
schema makes the keys of the steps of a version unique. -/
structure WorkflowDefinition where
  json : Json
  steps : Store.Table StepDefinition StepDefinition.key

/-- The step types with a registered handler. -/
def hasHandler : StepType → Bool
  | .webhookTrigger | .forEach | .tryCatch | .executeWorkflow | .subworkflowTrigger | .other _ => false
  | _ => true

/-! ## Retry policies -/

/-- How the delay grows from one attempt to the next. -/
inductive RetryStrategy where
  | fixed | exponential
deriving DecidableEq, Repr

/-- A retry policy in normal form. -/
structure RetryPolicy where
  maxAttempts : ℕ
  backoffMs : ℕ
  strategy : RetryStrategy
deriving DecidableEq, Repr

/-- `Math.min(max, Math.max(min, Math.trunc(value)))`, and `min` for a value that is not finite. -/
def clampNumber (value : Option ℚ) (low high : ℕ) : ℕ :=
  match value with
  | none => low
  | some q => min high (max low (q.num.tdiv q.den).toNat)

def normalizeRetryPolicy (js : JsLib) (raw : Option Json) : RetryPolicy :=
  -- The policy may be nested under `retry`.
  let retry := match Json.field raw "retry" with
    | some (.obj fields) => some (.obj fields)
    | _ => raw
  { maxAttempts := clampNumber ((Json.orElse (Json.field retry "maxAttempts") (.num 1)).toNumber js)
      1 5
    backoffMs := clampNumber ((Json.orElse (Json.field retry "backoffMs") (.num 1000)).toNumber js)
      100 60000
    strategy := if Json.strictEq false (Json.field retry "strategy") (some (.str "exponential")) then
      .exponential else .fixed }

/-- The policy of a step. -/
def StepDefinition.policy (js : JsLib) (step : StepDefinition) : RetryPolicy :=
  normalizeRetryPolicy js step.retryPolicy

/-- When to try again after this attempt. -/
def RetryPolicy.nextRetryAt (policy : RetryPolicy) (attemptCount now : ℕ) : ℕ :=
  let multiplier := match policy.strategy with
    | .exponential => max 1 (Nat.pow 2 (attemptCount - 1))
    | .fixed => 1
  now + min (policy.backoffMs * multiplier) 60000

/-! ## Errors -/

/-- What the engine throws. -/
inductive Failure where
  /-- `LeaseLostError`. -/
  | leaseLost
  /-- `StructuredStepFailure`. -/
  | structured (error : SafeStepError) (stepExecutionId : StepId)
  /-- `AmbiguousStepError`. -/
  | ambiguous (message : String)
  /-- `NonRetryableStepError`. -/
  | nonRetryable (message : String)
  /-- `HttpStepError`. -/
  | http (status : ℕ) (message : String)
  /-- Any other error; some carry a code. -/
  | other (message : String) (code : Option String)
deriving DecidableEq, Repr

namespace Failure

def message : Failure → String
  | leaseLost => "Execution lease was lost"
  | structured error _ => error.message
  | ambiguous message | nonRetryable message | http _ message | other message _ => message

def code : Failure → Option String
  | other _ code => code
  | _ => none

/-- The class of an error of which only the text is known. -/
def classifyMessage (text : String) : ErrorCategory :=
  let message := jsToLowerCase text
  if ["timed out", "timeout", "rate limit", "temporar", "econn", "connection", "socket",
      "network"].any (jsIncludes message) then .retryable
  else if ["config", "expression", "private, reserved or metadata ip", "internal host", "method",
      "ssrf", "schema"].any (jsIncludes message) then .nonRetryable
  else .ambiguous

def classify : Failure → ErrorCategory
  | ambiguous _ => .ambiguous
  | nonRetryable _ => .nonRetryable
  | http status _ =>
    if status ∈ [429, 502, 503, 504] then .retryable
    else if status ∈ [400, 401, 403] then .nonRetryable
    else .ambiguous
  | leaseLost => classifyMessage "Execution lease was lost"
  | structured error _ => classifyMessage error.message
  | other message _ => classifyMessage message

/-- What is stored of an error. -/
def serialize (failure : Failure) : StepError where
  message := failure.message
  classification := failure.classify
  code := failure.code

end Failure

/-! ## Reused steps -/

/-- A step result a replay takes over from the execution it replays. -/
structure StepReuse where
  recoveryExecutionId : String
  stepKey : String
  executionPath : String
  status : StepExecutionStatus
  outputJson : Option Json

/-! ## The surroundings -/

/-- What is fixed for all workers: settings, definitions, and functions of other parts of the system
about which nothing is assumed. -/
structure Platform where
  js : JsLib
  leaseDurationMs : ℕ
  pendingDispatchGraceMs : ℕ
  /-- The definition of each execution. -/
  definition : String → WorkflowDefinition
  /-- The step results of replays. -/
  reuses : List StepReuse
  /-- How an output is redacted and cut before it is stored. -/
  sanitizePersisted : Json → Json
  /-- The same for an error. -/
  sanitizeError : StepError → StepError
  /-- How a result of a loop is cut. -/
  limitPreview : Json → Json
  /-- How a message is redacted. -/
  safeMessage : String → String
  /-- The size of a value in bytes, serialised. -/
  byteLength : Json → ℕ
  /-- The check of the input and the output of a subworkflow. -/
  assertSubworkflowJson : Json → Except Failure Json
  /-- How many rounds of a loop, and how many nested services, are unfolded. -/
  fuel : ℕ

namespace Platform

/-- The graph of an execution, if its definition has one. -/
def graph (p : Platform) (executionId : String) : Option RuntimeGraph :=
  parseRuntimeGraph p.js (p.definition executionId).json

/-- The step a row belongs to. -/
def step? (p : Platform) (id : StepId) : Option StepDefinition :=
  (p.definition id.executionId).steps.get? id.stepKey

/-- The result a replay reuses for a step. -/
def reuse? (p : Platform) (id : StepId) : Option StepReuse :=
  p.reuses.find? fun reuse => decide (reuse.recoveryExecutionId = id.executionId) &&
    decide (reuse.stepKey = id.stepKey) && decide (reuse.executionPath = id.executionPath)

end Platform

/-! ## Small platforms -/

/-- A platform on which every execution runs the same definition, with leases of 10 ms. -/
def trialPlatform (definition : WorkflowDefinition) : Platform where
  js := .integers
  leaseDurationMs := 10
  pendingDispatchGraceMs := 0
  definition := fun _ => definition
  reuses := []
  sanitizePersisted := id
  sanitizeError := id
  limitPreview := id
  safeMessage := id
  byteLength := fun _ => 0
  assertSubworkflowJson := .ok
  fuel := 10

/-- A definition without a graph, of one step `"only"` with a single attempt. -/
def singleStep (type : StepType) : WorkflowDefinition where
  json := .obj []
  steps := ⟨[{ key := "only", type, position := 1, config := .obj [], retryPolicy := none }],
    List.nodup_singleton _⟩

end Flowmind
