import Flowmind.Engine.Statement

/-!
# What a test run does about handlers

Before the handler of a step is invoked, `TestRuntimePolicy` decides whether it is.  In a test run
whose external mode is `mock`, a step with effects outside gets a made-up result.  The policy looks
at the execution of the step and at the test run that belongs to this execution.
-/

namespace Flowmind

namespace TestRuns

inductive TestExternalMode where
  | mock | real
deriving DecidableEq, Repr

/-- A test run as it is stored; there is at most one for an execution. -/
structure TestRunRow where
  executionId : String
  externalMode : TestExternalMode
  stepMocksJson : Json

def isDataStoreStep : StepType → Bool
  | .dataStoreGetRecord | .dataStoreUpsertRecord | .dataStoreDeleteRecord | .dataStoreExistsRecord
  | .dataStoreCountRecords | .dataStoreListRecords => true
  | _ => false

/-- The name of the type starts with `ai_`. -/
def isAiStep (type : StepType) : Bool := ['a', 'i', '_'].isPrefixOf type.name.toList

/-- The steps with effects outside. -/
def isEffectStep (type : StepType) : Bool :=
  decide (type = .httpRequest) || decide (type = .emailNotification) ||
    decide (type = .databaseRecord) || isDataStoreStep type || isAiStep type

def asRecord : Option Json → Json
  | some (.obj fields) => .obj fields
  | _ => .obj []

/-- A property, unless it is `undefined`. -/
def property (name : String) (value : Option Json) : List (String × Json) :=
  (value.map fun value => (name, value)).toList

/-- The result that a made-up step returns. -/
def completedWith (fields : List (String × Json)) : StepResult where
  status := .completed
  output := some (.obj fields)
  done := isDone_completed

/-- The mock behaves in one of the ways. -/
def behaves (mock : Json) (ways : List String) : Bool :=
  ways.any fun way => Json.strictEq false (mock.get? "behavior") (some (.str way))

/-- The result in place of that of the handler.  A status that is not a number is `null`, as it is
stored. -/
def mockResult (js : JsLib) (step : StepDefinition) (resolvedConfig mock : Json) : StepResult :=
  match (mock.get? "output").filter fun _ => behaves mock ["manual", "simulated_success"] with
  | some output =>
    completedWith [("simulated", .bool true), ("stepKey", .str step.key), ("value", output)]
  | none =>
    if step.type = .httpRequest then
      let http := Json.orElse (mock.get? "http") (.obj [])
      let status := (Json.orElse (http.get? "status") (.num 200)).toNumber js
      completedWith [("simulated", .bool true), ("kind", .str "http"),
        ("status", (status.map Json.num).getD .null),
        ("ok", .bool (status.any fun status => decide (200 ≤ status) && decide (status < 300))),
        ("headers", Json.orElse (http.get? "headers") (.obj [])),
        ("body", Json.orElse (http.get? "body") (.obj []))]
    else if step.type = .emailNotification then
      completedWith ([("previewOnly", .bool true), ("simulated", .bool true)] ++
        ["to", "from", "subject", "text", "html"].flatMap fun name =>
          property name (resolvedConfig.get? name))
    else if step.type = .databaseRecord then
      completedWith ([("dryRun", .bool true), ("simulated", .bool true)] ++
        property "collection" (resolvedConfig.get? "collection") ++
        property "data" (resolvedConfig.get? "data") ++ [("wouldPersist", .bool true)])
    else if isDataStoreStep step.type then
      completedWith ([("dryRun", .bool true), ("simulated", .bool true),
          ("operation", .str step.type.name)] ++
        property "key" (resolvedConfig.get? "key") ++
        [("wouldPersist", .bool (decide (step.type = .dataStoreUpsertRecord) ||
          decide (step.type = .dataStoreDeleteRecord)))])
    else if isAiStep step.type then
      let ai := Json.orElse (mock.get? "ai") (.obj [])
      completedWith [("response", Json.orElse (ai.get? "response") (.obj [])),
        ("inputTokens", Json.orElse (ai.get? "inputTokens") (.num 0)),
        ("outputTokens", Json.orElse (ai.get? "outputTokens") (.num 0)),
        ("costUsd", Json.orElse (ai.get? "costUsd") (.num 0)),
        ("mock", .bool true), ("simulated", .bool true)]
    else
      completedWith [("simulated", .bool true), ("stepKey", .str step.key),
        ("value", Json.orElse (mock.get? "output") (.obj []))]

/-- What is done about a step of an execution, with the test run that belongs to the execution. -/
def decide (js : JsLib) (execution : Option ExecutionRow) (testRun : Option TestRunRow)
    (step : StepDefinition) (resolvedConfig : Json) : Decision :=
  match execution.filter fun row => Decidable.decide (row.executionMode = .test), testRun with
  | some _, some testRun =>
    let mock := asRecord ((asRecord (some testRun.stepMocksJson)).get? step.key)
    if behaves mock ["simulated_timeout"] then
      .error (.other ("Simulated timeout for " ++ step.key) none)
    else if behaves mock ["simulated_error"] then
      .error (.other ((Json.orElse (Json.field (mock.get? "error") "message")
        (.str ("Simulated error for " ++ step.key))).toJsString js) none)
    else if testRun.externalMode = .real ∧ step.type ≠ .databaseRecord ∧
        Json.truthy (mock.get? "behavior") = false then .runReal
    else if isEffectStep step.type = false then .runReal
    else .mock (mockResult js step resolvedConfig mock)
  | _, _ => .runReal

/-- In a mock test run no step with effects is run. -/
lemma decide_ne_runReal {js : JsLib} {row : ExecutionRow} {testRun : TestRunRow}
    {step : StepDefinition} (hmode : row.executionMode = .test) (hmock : testRun.externalMode = .mock)
    (heffect : isEffectStep step.type = true) (resolvedConfig : Json) :
    decide js (some row) (some testRun) step resolvedConfig ≠ .runReal := by
  have hfilter : (some row).filter (fun row => Decidable.decide (row.executionMode = .test)) =
      some row := by
    simp [hmode]
  simp only [decide, hfilter]
  split
  · simp
  split
  · simp
  · simp [hmock, heffect]

end TestRuns

end Flowmind
