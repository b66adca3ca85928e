import Flowmind.Engine.Runner
import Flowmind.Handlers.Branching
import Flowmind.Sanitize.Redaction

/-!
# Routing through the database

The handler of an IF, SWITCH or APPROVAL step decides where to go on, and its output says so.  The
main loop does not take the decision from the handler: it stores the output, redacted and cut
(`sanitizePersisted`), reads the row again and goes where the stored output leads.

* `ControlOutput` — the outputs of the three handlers.
* `RoutingKept` — the decision survives: the stored output fits, and a step key it names has no
  sensitive word in it, is not too long and is not rewritten as a URL.
* `persisted_routing_iff` — the main loop goes where the handler decided exactly then, in the run
  that made the decision and in one that finds the step done.
-/

namespace Flowmind

/-! ## The outputs of the handlers -/

/-- The status in lower case. -/
def ApprovalStatus.name : ApprovalStatus → String
  | .pending => "pending"
  | .approved => "approved"
  | .rejected => "rejected"
  | .expired => "expired"
  | .cancelled => "cancelled"

/-- The output of an approval that has been decided. -/
def approvalOutput (decision : ApprovalStatus) (decidedAt : String)
    (decidedByUserId : Option String) : Json :=
  .obj [("decision", .str decision.name), ("decidedAt", .str decidedAt),
    ("decidedByUserId", (decidedByUserId.map Json.str).getD .null)]

/-- The outputs of control steps. -/
inductive ControlOutput (js : JsLib) (stepKey : String) : Json → Prop where
  | ifStep {sameRef : Bool} {config output : Json}
      (h : ifHandler js sameRef stepKey config = .ok output) : ControlOutput js stepKey output
  | switchStep {sameRef : ℕ → Bool} {config output : Json}
      (h : switchHandler sameRef stepKey config = .ok output) : ControlOutput js stepKey output
  | approvalStep {decision : ApprovalStatus} (decidedAt : String) (decidedByUserId : Option String)
      (h : decision ∈ [.approved, .rejected, .expired]) :
      ControlOutput js stepKey (approvalOutput decision decidedAt decidedByUserId)

variable {stepKey : String} {output : Json}

variable {js : JsLib} {config : Json}

/-- The output of an IF step names a step by a value that is not empty. -/
lemma ifHandler_ok {sameRef : Bool} (h : ifHandler js sameRef stepKey config = .ok output) :
    ∃ matched branch key, Json.truthy (some key) = true ∧
      output = .obj [("matched", .bool matched), ("branch", .str branch), ("nextStepKey", key)] := by
  simp only [ifHandler, bind, Except.bind] at h
  split at h
  · simp at h
  · rename_i matched _
    split at h
    · rename_i key _
      split at h
      · exact ⟨matched, _, key, by assumption, (Except.ok.inj h).symm⟩
      · simp at h
    · simp at h

/-- So does the output of a SWITCH step. -/
lemma switchHandler_ok {sameRef : ℕ → Bool}
    (h : switchHandler sameRef stepKey config = .ok output) :
    ∃ caseKey caseLabel usedDefault key, Json.truthy (some key) = true ∧
      output = .obj [("matchedCaseKey", caseKey), ("matchedCaseLabel", caseLabel),
        ("usedDefault", usedDefault), ("nextStepKey", key)] := by
  simp only [switchHandler, bind, Except.bind] at h
  split at h
  · simp at h
  · split_ifs at h with htruthy
    exact ⟨_, _, _, _, htruthy, (Except.ok.inj h).symm⟩

/-- The output is a record that names a step or a decision, not both; a decision is one word. -/
lemma ControlOutput.shape (h : ControlOutput js stepKey output) :
    ∃ fields, output = .obj fields ∧
      ((Json.asString? (fields.lookup "decision") = none ∧
          Json.asString? (fields.lookup "nextStepKey") ≠ some "") ∨
        (Json.asString? (fields.lookup "nextStepKey") = none ∧
          ∃ decision, decision ∈ ["approved", "rejected", "expired"] ∧
            Json.asString? (fields.lookup "decision") = some decision)) := by
  cases h with
  | ifStep h =>
    obtain ⟨matched, branch, key, htruthy, rfl⟩ := ifHandler_ok h
    refine ⟨_, rfl, .inl ⟨rfl, fun hempty => ?_⟩⟩
    cases Json.asString?_eq_some_iff.mp hempty
    exact absurd htruthy (by decide)
  | switchStep h =>
    obtain ⟨caseKey, caseLabel, usedDefault, key, htruthy, rfl⟩ := switchHandler_ok h
    refine ⟨_, rfl, .inl ⟨rfl, fun hempty => ?_⟩⟩
    cases Json.asString?_eq_some_iff.mp hempty
    exact absurd htruthy (by decide)
  | approvalStep decidedAt decidedByUserId h =>
    refine ⟨_, rfl, .inr ⟨by simp [List.lookup_cons, Json.asString?], _, ?_, rfl⟩⟩
    simp only [List.mem_cons, List.not_mem_nil, or_false] at h
    rcases h with rfl | rfl | rfl <;> decide

/-! ## What is read back -/

variable (graph : RuntimeGraph)

/-- The target of the `next` edge. -/
def nextTarget (stepKey : String) : Option String :=
  ((graph.outgoingEdges stepKey).find? fun edge => decide (edge.kind = .next)).map (·.toKey)

/-- The choice, from the two text properties of an output that it depends on. -/
def selectedBy (stepKey : String) (explicit decision : Option String) : Option String :=
  if explicit.getD "" ≠ "" then some (explicit.getD "")
  else match decision with
    | some decision =>
      ((graph.outgoingEdges stepKey).find? fun edge =>
        decide (edge.kind.name = "approval_" ++ jsToLowerCase decision)).map (·.toKey)
    | none => nextTarget graph stepKey

lemma selectedNextStepKey_eq (stepKey : String) (output : Option Json) :
    selectedNextStepKey graph stepKey output = selectedBy graph stepKey
      (Json.asString? (Json.field output "nextStepKey")) (Json.asString? (Json.field output "decision")) :=
  rfl

lemma selectedBy_explicit {graph : RuntimeGraph} {key : String} (h : key ≠ "")
    (decision : Option String) : selectedBy graph stepKey (some key) decision = some key := by
  simp [selectedBy, h]

lemma selectedBy_none (stepKey : String) :
    selectedBy graph stepKey none none = nextTarget graph stepKey := by
  simp [selectedBy]

variable {graph : RuntimeGraph}

section Stored

variable (lib : LogLib) (maxBytes : ℕ)

/-- The output is small enough. -/
def Fits (output : Json) : Prop :=
  (clean persistedRedaction lib 0 output).byteLength lib.js ≤ maxBytes

/-- A step key that comes through. -/
def KeyKept (key : String) : Prop :=
  containsSensitiveWord key = false ∧ utf16Length key ≤ maxTextLength ∧ maybeSanitizeUrl lib key = key

/-- A step key that is not stored as a text. -/
def KeyTooLong (key : String) : Prop :=
  containsSensitiveWord key = false ∧ maxTextLength < utf16Length key

/-- The decision survives in the stored output: the key that the output names comes through, or
nothing is left of it and the `next` edge leads to the same step. -/
def RoutingKept (graph : RuntimeGraph) (stepKey : String) (output : Json) (next : String) : Prop :=
  (Fits lib maxBytes output ∧
      ∀ key, output.get? "nextStepKey" = some (.str key) → KeyKept lib key) ∨
    ((¬ Fits lib maxBytes output ∨
        ∃ key, output.get? "nextStepKey" = some (.str key) ∧ KeyTooLong key) ∧
      nextTarget graph stepKey = some next)

variable {lib maxBytes}

variable {fields : List (String × Json)}

lemma selected_stored_of_fits (h : Fits lib maxBytes (.obj fields)) :
    selectedNextStepKey graph stepKey (some (sanitizePersisted lib maxBytes (.obj fields))) =
      selectedBy graph stepKey
        ((Json.asString? (fields.lookup "nextStepKey")).bind (storedText persistedRedaction lib))
        ((Json.asString? (fields.lookup "decision")).bind (storedText persistedRedaction lib)) := by
  rw [selectedNextStepKey_eq, sanitizePersisted,
    asString?_field_sanitize (by decide) (by decide) h,
    asString?_field_sanitize (by decide) (by decide) h]
  rfl

lemma selected_stored_of_large (h : ¬ Fits lib maxBytes (.obj fields)) :
    selectedNextStepKey graph stepKey (some (sanitizePersisted lib maxBytes (.obj fields))) =
      nextTarget graph stepKey := by
  rw [selectedNextStepKey_eq, sanitizePersisted, field_sanitize_large (by decide) h,
    field_sanitize_large (by decide) h]
  exact selectedBy_none graph stepKey

variable {key : String}

lemma keyKept_iff : KeyKept lib key ↔ storedText persistedRedaction lib key = some key :=
  (storedText_eq_some_self_iff (r := persistedRedaction)).symm

lemma keyTooLong_iff (lib : LogLib) :
    KeyTooLong key ↔ storedText persistedRedaction lib key = none :=
  (storedText_eq_none_iff (r := persistedRedaction)).symm

/-- The words of decisions are stored as they are. -/
lemma storedText_decision {decision : String} (h : decision ∈ ["approved", "rejected", "expired"]) :
    storedText persistedRedaction lib decision = some decision := by
  simp only [List.mem_cons, List.not_mem_nil, or_false] at h
  rw [← keyKept_iff]
  rcases h with rfl | rfl | rfl <;> exact ⟨by decide, by decide, if_neg (by decide)⟩

/-- A named key is read back exactly when it comes through. -/
lemma selectedBy_storedText_iff (hne : key ≠ "") :
    selectedBy graph stepKey (storedText persistedRedaction lib key) none = some key ↔
      KeyKept lib key ∨ (KeyTooLong key ∧ nextTarget graph stepKey = some key) := by
  rw [keyKept_iff, keyTooLong_iff lib]
  cases hstored : storedText persistedRedaction lib key with
  | none => simp [selectedBy_none]
  | some text =>
    have htext : text ≠ "" := fun hempty => storedText_ne_empty hne (hempty ▸ hstored)
    simp [selectedBy_explicit htext]

/-- **The stored output leads where the handler decided exactly when the decision survives.** -/
lemma selected_stored_iff {next : String} (houtput : ControlOutput js stepKey output)
    (hnext : selectedNextStepKey graph stepKey (some output) = some next) :
    selectedNextStepKey graph stepKey (some (sanitizePersisted lib maxBytes output)) = some next ↔
      RoutingKept lib maxBytes graph stepKey output next := by
  obtain ⟨fields, rfl, hshape⟩ := houtput.shape
  have hget : ∀ key, (Json.obj fields).get? "nextStepKey" = some (.str key) ↔
      Json.asString? (fields.lookup "nextStepKey") = some key :=
    fun key => Json.asString?_eq_some_iff.symm
  simp only [RoutingKept, hget]
  change selectedBy graph stepKey (Json.asString? (fields.lookup "nextStepKey"))
    (Json.asString? (fields.lookup "decision")) = some next at hnext
  by_cases hfits : Fits lib maxBytes (.obj fields)
  · rw [selected_stored_of_fits hfits]
    rcases hshape with ⟨hdecision, hkey⟩ | ⟨hkey, decision, hmem, hdecision⟩
    · rw [hdecision] at hnext ⊢
      cases hexplicit : Json.asString? (fields.lookup "nextStepKey") with
      | none => simp_all
      | some key =>
        have hne : key ≠ "" := fun hempty => hkey (hempty ▸ hexplicit)
        rw [hexplicit, selectedBy_explicit hne] at hnext
        cases hnext
        simpa [hfits] using selectedBy_storedText_iff hne
    · rw [hkey, hdecision] at hnext ⊢
      rw [Option.bind_some, storedText_decision hmem]
      simp [hnext, hfits]
  · rw [selected_stored_of_large hfits]
    simp [hfits]

end Stored

/-! ## The main loop -/

namespace Runner

variable {current : LoadedExecution} {step : StepDefinition}

/-- Where a program goes on is the first thing it does. -/
lemma leave_inj {next next' : Option String}
    (h : leave current stepKey next = leave current stepKey next') : next = next' := by
  injection h with hstatement
  injection hstatement

/-- After a step that is done the main loop goes where the stored output leads. -/
lemma leaveDone_eq_leave_iff {next : String} :
    leaveDone graph current step = leave current step.key (some next) ↔
      selectedNextStepKey graph step.key ((rootRow current step.key).bind (·.outputJson)) =
        some next := by
  unfold leaveDone
  cases hselected : selectedNextStepKey graph step.key
      ((rootRow current step.key).bind (·.outputJson)) with
  | some selected => exact ⟨leave_inj, fun h => by rw [h]⟩
  | none =>
    refine ⟨fun h => ?_, fun h => absurd h (by simp)⟩
    dsimp only at h
    split at h
    · injection h with hstatement
      injection hstatement
    · cases h

/-- A run that finds the step done goes on at once. -/
lemma attempt_eq_leaveDone {p : Platform} {e : String} {row : StepRow}
    (h : isDone row.status = true) :
    attempt p e graph current step row = leaveDone graph current step := by
  have hexhausted : ¬ attemptsExhausted row = true := by
    intro hfailed
    simp only [attemptsExhausted, Bool.and_eq_true, decide_eq_true_eq] at hfailed
    rw [hfailed.1] at h
    exact absurd h (by decide)
  rw [attempt, if_neg hexhausted, if_pos h]

end Runner

/-- A step execution as the executor leaves it when the handler has returned. -/
def storedRow (p : Platform) (result : StepResult) (completedAt : ℕ) (row : StepRow) : StepRow :=
  (StepWrite.complete result (result.output.map p.sanitizePersisted) completedAt).apply row

/-- **The main loop goes where the handler of a control step decided exactly when the decision
survives in the stored output**: in the run that made the decision, after it has loaded the
execution again, and in a later run that finds the step done. -/
theorem persisted_routing_iff {p : Platform} {lib : LogLib} {maxBytes : ℕ}
    (hp : p.sanitizePersisted = sanitizePersisted lib maxBytes) {e : String} {graph : RuntimeGraph}
    {step : StepDefinition} {result : StepResult} {output : Json} {next : String}
    (hresult : result.output = some output) (houtput : ControlOutput p.js step.key output)
    (hnext : selectedNextStepKey graph step.key (some output) = some next)
    {row : StepRow} {completedAt : ℕ} {current : LoadedExecution}
    (hcurrent : Runner.rootRow current step.key = some (storedRow p result completedAt row)) :
    (Runner.leaveDone graph current step = Runner.leave current step.key (some next) ∧
      Runner.attempt p e graph current step (storedRow p result completedAt row) =
        Runner.leave current step.key (some next)) ↔
      RoutingKept lib maxBytes graph step.key output next := by
  have hstored : (storedRow p result completedAt row).outputJson =
      some (sanitizePersisted lib maxBytes output) := by
    simp [storedRow, StepWrite.apply, hresult, hp]
  have hdone : isDone (storedRow p result completedAt row).status = true := result.done
  rw [Runner.attempt_eq_leaveDone hdone, and_self, Runner.leaveDone_eq_leave_iff, hcurrent,
    Option.bind_some, hstored]
  exact selected_stored_iff houtput hnext

/-! ### A step key with a word in it -/

/-- The platform of a worker with the default limit. -/
def persistingPlatform : Platform :=
  { trialPlatform (singleStep .if) with sanitizePersisted := sanitizePersisted .plain 65536 }

variable (trueKey : String)

def checkStep : StepDefinition where
  key := "check"
  type := .if
  position := 1
  config := .obj [("left", .str "a"), ("operator", .str "equals"), ("right", .str "a"),
    ("trueStepKey", .str trueKey), ("falseStepKey", .str "end")]
  retryPolicy := none

/-- The step `check` branches to `trueKey` and to the end. -/
def checkGraph : RuntimeGraph where
  entryStepKey := "check"
  edges := [⟨"check", trueKey, .ifTrue, none, none⟩, ⟨"check", "end", .ifFalse, none, none⟩,
    ⟨trueKey, "end", .next, none, none⟩]
  terminalStepKeys := none

def checkResult : StepResult where
  status := .completed
  output := some (ifOutput trueKey "end" true)
  done := isDone_completed

def checkedRow : StepRow :=
  storedRow persistingPlatform (checkResult trueKey) 0 (newStep ⟨"run", "check", rootPath⟩ .if none 1)

/-- The execution as it is loaded after the step. -/
def checkedExecution : LoadedExecution where
  row := newExecution "run" "org" "workflow" "version" .running 0
  steps := [checkedRow trueKey]

lemma ifHandler_checkStep {trueKey : String} (h : trueKey ≠ "") :
    ifHandler .integers false "check" (checkStep trueKey).config = .ok (ifOutput trueKey "end" true) := by
  have hkey : (checkStep trueKey).config.get? "trueStepKey" = some (.str trueKey) := rfl
  have hend : (checkStep trueKey).config.get? "falseStepKey" = some (.str "end") := rfl
  rw [ifHandler_eq hkey h hend (by decide)]
  rfl

lemma rootRow_checkedExecution :
    Runner.rootRow (checkedExecution trueKey) "check" = some (checkedRow trueKey) := rfl

lemma outputJson_checkedRow :
    (checkedRow trueKey).outputJson =
      some (sanitizePersisted .plain 65536 (ifOutput trueKey "end" true)) := by
  simp only [checkedRow, storedRow, StepWrite.apply, checkResult, Option.map_some, persistingPlatform]

/-- A key without such words is followed. -/
theorem check_notify_followed :
    Runner.leaveDone (checkGraph "notify") (checkedExecution "notify") (checkStep "notify") =
      Runner.leave (checkedExecution "notify") "check" (some "notify") := by
  have hfits : Fits .plain 65536 (ifOutput "notify" "end" true) := by
    unfold Fits
    decide +kernel
  have hkept : RoutingKept .plain 65536 (checkGraph "notify") "check" (ifOutput "notify" "end" true)
      "notify" := by
    refine .inl ⟨hfits, ?_⟩
    rintro key ⟨⟩
    exact ⟨by decide, by decide, rfl⟩
  have houtput : (checkResult "notify").output = some (ifOutput "notify" "end" true) := rfl
  have hcontrol : ControlOutput persistingPlatform.js (checkStep "notify").key
      (ifOutput "notify" "end" true) := .ifStep (ifHandler_checkStep (by decide))
  have hnext : selectedNextStepKey (checkGraph "notify") (checkStep "notify").key
      (some (ifOutput "notify" "end" true)) = some "notify" :=
    selectedNextStepKey_explicit rfl (by decide) _ _
  exact ((persisted_routing_iff (p := persistingPlatform) (e := "run") rfl houtput hcontrol hnext
    (rootRow_checkedExecution "notify")).mpr hkept).1

/-- A key with the word `password` in it: the graph is accepted and the handler chooses the step,
but the main loop looks for a step `[redacted]`. -/
theorem check_reset_password_lost :
    validateRuntimeGraph (checkGraph "reset-password") ["check", "reset-password", "end"] = .ok () ∧
      ControlOutput .integers "check" (ifOutput "reset-password" "end" true) ∧
      selectedNextStepKey (checkGraph "reset-password") "check"
        (some (ifOutput "reset-password" "end" true)) = some "reset-password" ∧
      Runner.leaveDone (checkGraph "reset-password") (checkedExecution "reset-password")
          (checkStep "reset-password") =
        Runner.leave (checkedExecution "reset-password") "check" (some "[redacted]") := by
  have hfits : Fits .plain 65536 (ifOutput "reset-password" "end" true) := by
    unfold Fits
    decide +kernel
  have hstored : storedText persistedRedaction .plain "reset-password" = some "[redacted]" := by
    rw [storedText, cleanText_of_sensitive _ _ (show containsSensitiveWord _ = true by decide)]
    rfl
  have hlookup : Json.asString? (List.lookup "nextStepKey" [("matched", Json.bool true),
      ("branch", .str (if true then "true" else "false")),
      ("nextStepKey", .str (if true then "reset-password" else "end"))]) = some "reset-password" := rfl
  have hselected : selectedNextStepKey (checkGraph "reset-password") (checkStep "reset-password").key
      ((Runner.rootRow (checkedExecution "reset-password") (checkStep "reset-password").key).bind
        (·.outputJson)) = some "[redacted]" := by
    rw [ifOutput] at hfits
    rw [show (checkStep "reset-password").key = "check" from rfl, rootRow_checkedExecution,
      Option.bind_some, outputJson_checkedRow, ifOutput, selected_stored_of_fits hfits, hlookup,
      Option.bind_some, hstored, selectedBy_explicit (by decide)]
  exact ⟨by decide +kernel, .ifStep (ifHandler_checkStep (by decide)),
    selectedNextStepKey_explicit rfl (by decide) _ _, Runner.leaveDone_eq_leave_iff.mpr hselected⟩

end Flowmind
