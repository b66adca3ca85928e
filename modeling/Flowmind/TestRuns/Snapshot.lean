import Flowmind.Engine.Rows
import Flowmind.Graph.Validation
import Flowmind.Sanitize.Redaction

/-!
# The definition a test run executes

A test run is given a definition, as a draft or by the version it is stored in.  The API checks it
and stores a copy with the test run; the worker runs the copy.  The copy is made by
`sanitizePublic`, as if it were to be shown: texts with sensitive words, values of sensitive keys,
long texts, long arrays and deep nesting are replaced.  A rerun takes the copy as its draft.

* `create`, `rerun` — what the API does.
* `runtimeDefinition`, `runtimeStepRows` — what the worker reads.
* `Executes` — what the worker reads is what was given.
* `test_run_executes_iff` — exactly the definitions that come through the passes are executed as
  given, and executed again by a rerun.
-/

namespace Flowmind

namespace TestRuns

/-! ## The API -/

variable (js : JsLib)

/-- A step of a definition, for the validation of the graph. -/
def graphStep (step : Json) : GraphStepLike where
  id := Json.asString? (step.get? "id")
  key := Json.stringOf js (step.get? "key")
  type := .ofName (Json.stringOf js (step.get? "type"))
  config := (step.get? "config").getD (.obj [])

def isRecord : Option Json → Bool
  | some (.obj _) => true
  | _ => false

variable (definition : Json)

/-- The schema version is 2, by its number or because there is a graph. -/
def isSchema2 : Bool :=
  let schemaVersion := Json.orElse (definition.get? "workflowDefinitionSchemaVersion")
    (if Json.truthy (definition.get? "graph") then .num 2 else .num 1)
  Json.strictEq false (some schemaVersion) (some (.num 2))

/-- The first error of the validation is thrown. -/
def validateWorkflowGraph (steps : List Json) (graph : Option Json) : Except String Unit :=
  match validateGraphV2 js (steps.map (graphStep js)) graph with
  | [] => .ok ()
  | firstError :: _ => .error firstError.message

def validateSnapshot : Except String Unit :=
  if isRecord (some definition) && isRecord (definition.get? "trigger") then
    match Json.asArray? (definition.get? "steps") with
    | some steps =>
      if isSchema2 definition then validateWorkflowGraph js steps (definition.get? "graph")
      else .ok ()
    | none => .error "Workflow definition is invalid"
  else .error "Workflow definition is invalid"

/-- Where the definition of a test run came from. -/
inductive Source where
  | draft | version
deriving DecidableEq, Repr

/-- What a test run is asked for with: a draft, or else the definition of a stored version. -/
structure Request where
  draftDefinition : Option Json
  versionDefinition : Option Json

def resolveSnapshot (request : Request) : Except String (Json × Source) :=
  if Json.truthy request.draftDefinition then
    let snapshot := request.draftDefinition.getD .null
    (validateSnapshot js snapshot).map fun _ => (snapshot, .draft)
  else
    match request.versionDefinition with
    | none => .error "Workflow has no version to test"
    | some snapshot => (validateSnapshot js snapshot).map fun _ => (snapshot, .version)

/-- `collectSideEffectNodes` reads the type of every step, which `null` does not have. -/
def stepsReadable : Bool :=
  ((Json.asArray? (definition.get? "steps")).getD []).all fun step => !(step matches .null)

/-- A test run, as far as its definition goes. -/
structure TestRun where
  snapshotDefinitionJson : Json
  source : Source

def create (lib : LogLib) (maxBytes : ℕ) (request : Request) : Except String TestRun :=
  match resolveSnapshot js request with
  | .error message => .error message
  | .ok (snapshot, source) =>
    if stepsReadable snapshot then
      .ok { snapshotDefinitionJson := sanitizePublic lib maxBytes snapshot, source }
    else .error "Cannot read properties of null (reading 'type')"

/-- The test run once more, with the stored copy as a draft. -/
def rerun (lib : LogLib) (maxBytes : ℕ) (original : TestRun) : Except String TestRun :=
  create js lib maxBytes
    { draftDefinition := some original.snapshotDefinitionJson, versionDefinition := none }

/-! ## The worker -/

/-- A step as the worker runs it. -/
structure RuntimeStepRow where
  key : String
  name : String
  type : StepType
  position : ℚ
  configJson : Json
  retryPolicyJson : Json
  timeoutSeconds : Option ℚ

/-- The part of a loaded execution that its definition comes from. -/
structure RuntimeSource where
  executionMode : ExecutionMode
  testRun : Option TestRun
  versionDefinition : Option Json
  versionSteps : List RuntimeStepRow

variable (execution : RuntimeSource)

/-- The copy that a test run stored. -/
def RuntimeSource.snapshot? : Option Json :=
  match execution.executionMode, execution.testRun with
  | .test, some testRun =>
    if Json.truthy (some testRun.snapshotDefinitionJson) then some testRun.snapshotDefinitionJson
    else none
  | _, _ => none

def runtimeDefinition : Option Json :=
  match execution.snapshot? with
  | some snapshot => some snapshot
  | none => execution.versionDefinition

def runtimeStepRow (step : Json) (index : ℕ) : RuntimeStepRow where
  key := Json.stringOf js (step.get? "key")
  name := (Json.orElse (step.get? "name") ((step.get? "key").getD .null)).toJsString js
  type := .ofName (Json.stringOf js (step.get? "type"))
  position := ((step.get? "position").bind (·.toNumber js)).getD index
  configJson := Json.orElse (step.get? "config") (.obj [])
  retryPolicyJson := Json.orElse (step.get? "retryPolicy") .null
  timeoutSeconds := match step.get? "timeoutSeconds" with
    | some (.num q) => some q
    | _ => none

/-- The steps of a definition: its trigger, if it has one, and its steps. -/
def definitionStepRows : List RuntimeStepRow :=
  let trigger := (definition.get? "trigger").toList.filter fun step => Json.truthy (some step)
  let steps := (Json.asArray? (definition.get? "steps")).getD []
  (trigger ++ steps).zipIdx.map fun (step, index) => runtimeStepRow js step index

def runtimeStepRows : List RuntimeStepRow :=
  match execution.snapshot? with
  | some snapshot => definitionStepRows js snapshot
  | none => execution.versionSteps

/-! ## Executing what was given -/

/-- The parts of a definition that an execution is made of. -/
def executedFields : List String :=
  ["trigger", "steps", "graph", "workflowVariables", "environmentVariables"]

/-- The worker executes the given definition, whatever version the test run is filed under. -/
def Executes (testRun : TestRun) : Prop :=
  ∀ versionDefinition versionSteps,
    let execution : RuntimeSource :=
      { executionMode := .test, testRun := some testRun, versionDefinition, versionSteps }
    runtimeStepRows js execution = definitionStepRows js definition ∧
      ∃ runtime, runtimeDefinition execution = some runtime ∧
        parseRuntimeGraph js runtime = parseRuntimeGraph js definition ∧
        ∀ name ∈ executedFields, runtime.get? name = definition.get? name

/-- The definition is small enough. -/
def Fits (lib : LogLib) (maxBytes : ℕ) (definition : Json) : Prop :=
  (clean publicRedaction lib 0 definition).byteLength lib.js ≤ maxBytes

/-- What is executed of the definition comes through the passes, and neither the definition nor its
copy is too large. -/
structure DefinitionKept (lib : LogLib) (maxBytes : ℕ) (definition : Json) : Prop where
  fits : Fits lib maxBytes definition
  copy_fits : Fits lib maxBytes (clean publicRedaction lib 0 definition)
  kept : ∀ name ∈ executedFields, ∀ v, definition.get? name = some v →
    Kept publicRedaction lib 1 v

/-! ## The stored copy -/

variable {js : JsLib} {lib : LogLib} {maxBytes : ℕ} {definition : Json}

section Copy

variable {fields : List (String × Json)}

lemma sanitizePublic_of_fits (h : Fits lib maxBytes definition) :
    sanitizePublic lib maxBytes definition = clean publicRedaction lib 0 definition :=
  if_pos h

/-- No key of a part that is executed is a sensitive one. -/
lemma executedFields_plain {name : String} (h : name ∈ executedFields) :
    isLogSensitive name = false ∧ publicRedaction.sensitiveKey name = false ∧
      name ∉ ["truncated", "originalSize", "preview"] := by
  simp only [executedFields, List.mem_cons, List.not_mem_nil, or_false] at h
  rcases h with rfl | rfl | rfl | rfl | rfl <;> decide

/-- A part that is executed is stored as it is exactly when it comes through. -/
lemma get?_clean_eq_iff {name : String} (h : name ∈ executedFields) :
    (clean publicRedaction lib 0 (.obj fields)).get? name = (Json.obj fields).get? name ↔
      ∀ v, (Json.obj fields).get? name = some v → Kept publicRedaction lib 1 v := by
  obtain ⟨hlog, hkey, -⟩ := executedFields_plain h
  rw [get?_clean (Nat.zero_le 8)]
  change (fields.lookup name).map _ = fields.lookup name ↔ ∀ v, fields.lookup name = some v → _
  cases fields.lookup name with
  | none => simp
  | some v =>
    rw [Option.map_some, cleanField, hlog, hkey]
    simp [clean_eq_self_iff]

/-- The passes turn a value into a number or into `null` only where it is one already. -/
lemma clean_plain {r : Redaction} {depth : ℕ} (h : depth ≤ 8) (v : Json) (q : ℚ) :
    (clean r lib depth v = .num q ↔ v = .num q) ∧ (clean r lib depth v = .null ↔ v = .null) := by
  have hdepth : ¬ 8 < depth := by omega
  cases v with
  | str s =>
    rw [clean_str, cleanText, limitText]
    split_ifs <;> simp [sanitizeValue]
  | arr items =>
    by_cases hlength : items.length ≤ maxArrayLength
    · simp [clean_arr r lib depth items h hlength]
    · obtain ⟨entries, hentries⟩ := clean_arr_long r lib depth items hlength
      simp [hentries]
  | obj entries => simp [clean_obj r lib depth entries h]
  | _ => simp [clean, redact, limitValue, hdepth, sanitizeValue]

/-- The schema version is read alike in a definition and in its copy. -/
def SameVersion (copy definition : Json) : Prop :=
  ∀ fallback q, (Json.orElse (copy.get? "workflowDefinitionSchemaVersion") fallback = .num q ↔
    Json.orElse (definition.get? "workflowDefinitionSchemaVersion") fallback = .num q)

lemma sameVersion_clean : SameVersion (clean publicRedaction lib 0 (.obj fields)) (.obj fields) := by
  intro fallback q
  rw [get?_clean (Nat.zero_le 8)]
  change _ ↔ Json.orElse (fields.lookup _) fallback = .num q
  cases fields.lookup "workflowDefinitionSchemaVersion" with
  | none => rfl
  | some v =>
    have hfield : cleanField publicRedaction lib (0 + 1) "workflowDefinitionSchemaVersion" v =
        clean publicRedaction lib 1 v := by
      rw [cleanField, if_neg (by decide), if_neg (by decide)]
    obtain ⟨hnum, hnull⟩ : (clean publicRedaction lib 1 v = .num q ↔ v = .num q) ∧
        (clean publicRedaction lib 1 v = .null ↔ v = .null) := clean_plain (by decide) v q
    rw [Option.map_some, hfield]
    by_cases hv : v = .null
    · rw [hnull.mpr hv, hv]
    · rw [Json.orElse_of_ne_null hv, Json.orElse_of_ne_null (mt hnull.mp hv), hnum]

/-- The copy has the executed parts of the definition. -/
def SameFields (copy definition : Json) : Prop :=
  ∀ name ∈ executedFields, copy.get? name = definition.get? name

section Same

variable {copy : Json}

section

variable (hversion : SameVersion copy definition) (hfields : SameFields copy definition)
include hversion hfields

lemma isSchema2_congr : isSchema2 copy = isSchema2 definition := by
  rw [Bool.eq_iff_iff]
  simp only [isSchema2, Json.strictEq_num_iff, Option.some.injEq, hfields "graph" (by decide)]
  exact hversion _ _

lemma parseRuntimeGraph_congr : parseRuntimeGraph js copy = parseRuntimeGraph js definition := by
  have hread : ∀ value : Option Json, Json.strictEq false value (some (.num 2)) = true ↔
      Json.orElse value .null = .num 2 := by
    intro value
    rw [Json.strictEq_num_iff]
    rcases value with _ | v
    · simp [Json.orElse]
    · cases v <;> simp [Json.orElse]
  have hschema : Json.strictEq false (copy.get? "workflowDefinitionSchemaVersion") (some (.num 2)) =
      Json.strictEq false (definition.get? "workflowDefinitionSchemaVersion") (some (.num 2)) := by
    rw [Bool.eq_iff_iff, hread, hread]
    exact hversion .null 2
  simp only [parseRuntimeGraph, hschema, hfields "graph" (by decide)]

end

lemma definitionStepRows_congr (hfields : SameFields copy definition) :
    definitionStepRows js copy = definitionStepRows js definition := by
  simp only [definitionStepRows, hfields "trigger" (by decide), hfields "steps" (by decide)]

/-- A copy with the same parts passes the same checks. -/
lemma validateSnapshot_congr (hrecord : isRecord (some copy) = isRecord (some definition))
    (hversion : SameVersion copy definition) (hfields : SameFields copy definition) :
    validateSnapshot js copy = validateSnapshot js definition := by
  simp only [validateSnapshot, hrecord, hfields "trigger" (by decide), hfields "steps" (by decide),
    hfields "graph" (by decide), isSchema2_congr hversion hfields]

lemma stepsReadable_congr (hfields : SameFields copy definition) :
    stepsReadable copy = stepsReadable definition := by
  simp only [stepsReadable, hfields "steps" (by decide)]

/-- A test run that executes the definition has stored its parts. -/
lemma Executes.sameFields {testRun : TestRun} (h : Executes js definition testRun)
    (htruthy : Json.truthy (some testRun.snapshotDefinitionJson) = true) :
    SameFields testRun.snapshotDefinitionJson definition := by
  obtain ⟨-, runtime, hruntime, -, hfields⟩ := h none []
  simp only [runtimeDefinition, RuntimeSource.snapshot?, htruthy, if_true, Option.some.injEq]
    at hruntime
  exact hruntime ▸ hfields

lemma executes_of_same {testRun : TestRun}
    (htruthy : Json.truthy (some testRun.snapshotDefinitionJson) = true)
    (hversion : SameVersion testRun.snapshotDefinitionJson definition)
    (hfields : SameFields testRun.snapshotDefinitionJson definition) :
    Executes js definition testRun := by
  intro versionDefinition versionSteps
  simp only [runtimeStepRows, runtimeDefinition, RuntimeSource.snapshot?, htruthy]
  exact ⟨definitionStepRows_congr hfields, _, rfl, parseRuntimeGraph_congr hversion hfields, hfields⟩

end Same

/-- The copy of a record is a record. -/
lemma exists_sanitizePublic_eq_obj (lib : LogLib) (maxBytes : ℕ) (fields : List (String × Json)) :
    ∃ entries, sanitizePublic lib maxBytes (.obj fields) = .obj entries := by
  by_cases hfits : Fits lib maxBytes (.obj fields)
  · rw [sanitizePublic_of_fits hfits]
    exact ⟨_, rfl⟩
  · exact ⟨_, if_neg hfits⟩

/-- A definition whose steps are in the copy was small enough. -/
lemma fits_of_sameFields {steps : List Json}
    (hsteps : (Json.obj fields).get? "steps" = some (.arr steps))
    (h : SameFields (sanitizePublic lib maxBytes (.obj fields)) (.obj fields)) :
    Fits lib maxBytes (.obj fields) := by
  by_contra hlarge
  have hnone : Json.field (some (sanitizePublic lib maxBytes (.obj fields))) "steps" = none :=
    field_sanitize_large (by decide) hlarge
  have hsome := h "steps" (by decide)
  rw [hsteps] at hsome
  rw [Json.field, Option.bind_some, hsome] at hnone
  exact absurd hnone (by simp)

/-- **The copy has the executed parts exactly when the definition fits and they come through.** -/
lemma sameFields_copy_iff {steps : List Json}
    (hsteps : (Json.obj fields).get? "steps" = some (.arr steps)) :
    SameFields (sanitizePublic lib maxBytes (.obj fields)) (.obj fields) ↔
      Fits lib maxBytes (.obj fields) ∧ ∀ name ∈ executedFields, ∀ v,
        (Json.obj fields).get? name = some v → Kept publicRedaction lib 1 v := by
  constructor
  · intro h
    have hfits := fits_of_sameFields hsteps h
    rw [sanitizePublic_of_fits hfits] at h
    exact ⟨hfits, fun name hname => (get?_clean_eq_iff hname).mp (h name hname)⟩
  · rintro ⟨hfits, hkept⟩
    rw [sanitizePublic_of_fits hfits]
    exact fun name hname => (get?_clean_eq_iff hname).mpr (hkept name hname)

/-- What passes the checks is a record with an array of steps. -/
lemma exists_steps_of_validateSnapshot (h : validateSnapshot js definition = .ok ()) :
    ∃ fields steps, definition = .obj fields ∧ definition.get? "steps" = some (.arr steps) := by
  by_cases hrecord : (isRecord (some definition) && isRecord (definition.get? "trigger")) = true
  · rw [validateSnapshot] at h
    cases hsteps : Json.asArray? (definition.get? "steps") with
    | none => simp [hsteps] at h
    | some steps =>
      cases definition with
      | obj fields => exact ⟨fields, steps, rfl, Json.asArray?_eq_some_iff.mp hsteps⟩
      | _ => simp [isRecord] at hrecord
  · simp [validateSnapshot, hrecord] at h

end Copy

/-! ## The round trip -/

section RoundTrip

variable {request : Request} {source : Source} {testRun : TestRun}

lemma validateSnapshot_of_resolve (h : resolveSnapshot js request = .ok (definition, source)) :
    validateSnapshot js definition = .ok () := by
  have hmap : ∀ {snapshot : Json} {origin : Source},
      (validateSnapshot js snapshot).map (fun _ => (snapshot, origin)) = .ok (definition, source) →
        validateSnapshot js definition = .ok () := by
    intro snapshot origin heq
    obtain ⟨_, hvalid, ⟨⟩⟩ := exists_of_map_eq_ok heq
    exact hvalid
  rw [resolveSnapshot] at h
  split_ifs at h
  · exact hmap h
  · cases hversion : request.versionDefinition with
    | none => simp [hversion] at h
    | some snapshot =>
      rw [hversion] at h
      exact hmap h

lemma create_ok (hresolve : resolveSnapshot js request = .ok (definition, source))
    (hcreate : create js lib maxBytes request = .ok testRun) :
    testRun.snapshotDefinitionJson = sanitizePublic lib maxBytes definition ∧
      stepsReadable definition = true := by
  rw [create, hresolve] at hcreate
  dsimp only at hcreate
  split_ifs at hcreate with hreadable
  cases hcreate
  exact ⟨rfl, hreadable⟩

/-- A copy that passes the checks is run again, as a copy of the copy. -/
lemma rerun_eq {copy : Json} (hcopy : testRun.snapshotDefinitionJson = copy)
    (htruthy : Json.truthy (some copy) = true) (hvalid : validateSnapshot js copy = .ok ())
    (hreadable : stepsReadable copy = true) :
    rerun js lib maxBytes testRun =
      .ok { snapshotDefinitionJson := sanitizePublic lib maxBytes copy, source := .draft } := by
  simp [rerun, create, resolveSnapshot, hcopy, htruthy, hvalid, hreadable, Except.map]

/-- **A test run executes the definition it was given, and its rerun does, exactly when the
definition comes through the passes that made the copy.** -/
theorem test_run_executes_iff (hresolve : resolveSnapshot js request = .ok (definition, source))
    (hcreate : create js lib maxBytes request = .ok testRun) :
    (Executes js definition testRun ∧
        ∃ again, rerun js lib maxBytes testRun = .ok again ∧ Executes js definition again) ↔
      DefinitionKept lib maxBytes definition := by
  have hvalid := validateSnapshot_of_resolve hresolve
  obtain ⟨hcopy, hreadable⟩ := create_ok hresolve hcreate
  obtain ⟨fields, steps, rfl, hsteps⟩ := exists_steps_of_validateSnapshot hvalid
  obtain ⟨entries, hentries⟩ :
      ∃ entries, clean publicRedaction lib 0 (.obj fields) = .obj entries :=
    ⟨_, clean_obj _ _ _ _ (Nat.zero_le 8)⟩
  have hversion : SameVersion (.obj entries) (.obj fields) := hentries ▸ sameVersion_clean
  -- The rerun, once the first copy is known to have the executed parts.
  have hrerun : Fits lib maxBytes (.obj fields) → SameFields (.obj entries) (.obj fields) →
      rerun js lib maxBytes testRun =
        .ok { snapshotDefinitionJson := sanitizePublic lib maxBytes (.obj entries)
              source := .draft } := by
    intro hfits hsame
    refine rerun_eq (by rw [hcopy, sanitizePublic_of_fits hfits, hentries]) rfl ?_ ?_
    · exact (validateSnapshot_congr (by rfl) hversion hsame).trans hvalid
    · rw [stepsReadable_congr hsame, hreadable]
  obtain ⟨again, hagain⟩ := exists_sanitizePublic_eq_obj lib maxBytes entries
  constructor
  · rintro ⟨hfirst, second, hsecond, hexecutes⟩
    obtain ⟨stored, hstored⟩ := exists_sanitizePublic_eq_obj lib maxBytes fields
    have hsame := hfirst.sameFields (by rw [hcopy, hstored]; rfl)
    rw [hcopy] at hsame
    obtain ⟨hfits, hkept⟩ := (sameFields_copy_iff hsteps).mp hsame
    rw [sanitizePublic_of_fits hfits, hentries] at hsame
    rw [hrerun hfits hsame, Except.ok.injEq] at hsecond
    subst hsecond
    have hsame' := hexecutes.sameFields (by simp only [hagain]; rfl)
    refine ⟨hfits, ?_, hkept⟩
    rw [hentries]
    have hsteps' := (hsame "steps" (by decide)).trans hsteps
    exact fits_of_sameFields hsteps' fun name hname =>
      (hsame' name hname).trans (hsame name hname).symm
  · rintro ⟨hfits, hfits', hkept⟩
    have hsame := (sameFields_copy_iff hsteps).mpr ⟨hfits, hkept⟩
    rw [sanitizePublic_of_fits hfits, hentries] at hsame
    rw [hentries] at hfits'
    have hfirst : Executes js (.obj fields) testRun := by
      have hrecord : testRun.snapshotDefinitionJson = .obj entries := by
        rw [hcopy, sanitizePublic_of_fits hfits, hentries]
      exact executes_of_same (by rw [hrecord]; rfl) (hrecord ▸ hversion) (hrecord ▸ hsame)
    refine ⟨hfirst, _, hrerun hfits hsame, executes_of_same (by simp only [hagain]; rfl) ?_ ?_⟩
    · intro fallback q
      rw [sanitizePublic_of_fits hfits']
      exact (sameVersion_clean fallback q).trans (hversion fallback q)
    · have hsame' : SameFields (sanitizePublic lib maxBytes (.obj entries)) (.obj entries) :=
        (sameFields_copy_iff ((hsame "steps" (by decide)).trans hsteps)).mpr
          ⟨hfits', fun name hname v hv => hkept name hname v ((hsame name hname) ▸ hv)⟩
      exact fun name hname => (hsame' name hname).trans (hsame name hname)

end RoundTrip

/-! ### A definition with a word in it -/

/-- A draft of a trigger and an email with the given subject. -/
def emailDraft (subject : String) : Json :=
  .obj [("trigger", .obj [("key", .str "trigger"), ("type", .str "webhook_trigger")]),
    ("steps", .arr [.obj [("key", .str "welcome"), ("type", .str "email_notification"),
      ("config", .obj [("subject", .str subject)])]])]

/-- The test run of the draft. -/
def emailTestRun (subject : String) : TestRun where
  snapshotDefinitionJson := sanitizePublic .plain 65536 (emailDraft subject)
  source := .draft

lemma create_emailDraft (subject : String) :
    create .integers .plain 65536
        { draftDefinition := some (emailDraft subject), versionDefinition := none } =
      .ok (emailTestRun subject) := rfl

/-- A draft without such words is executed as given. -/
theorem welcome_executed : Executes .integers (emailDraft "Welcome") (emailTestRun "Welcome") := by
  have htext : ∀ s ∈ ["trigger", "webhook_trigger", "welcome", "email_notification", "Welcome"],
      publicRedaction.sensitiveText s = false ∧ utf16Length s ≤ maxTextLength ∧
        maybeSanitizeUrl .plain s = s := by decide +kernel
  have hkeys : ∀ s ∈ ["key", "type", "config", "subject"],
      isLogSensitive s = false ∧ publicRedaction.sensitiveKey s = false := by decide +kernel
  simp only [List.forall_mem_cons, List.not_mem_nil, false_imp_iff, implies_true, and_true] at htext hkeys
  have hkept : DefinitionKept .plain 65536 (emailDraft "Welcome") := by
    refine ⟨by unfold Fits; decide +kernel, by unfold Fits; decide +kernel, fun name hname v hv => ?_⟩
    simp only [executedFields, List.mem_cons, List.not_mem_nil, or_false] at hname
    rcases hname with rfl | rfl | rfl | rfl | rfl <;> cases hv
    · simp [Kept, KeptFields, htext, hkeys]
    · simp [Kept, KeptFields, KeptItems, htext, hkeys, maxArrayLength]
  have hresolve : resolveSnapshot .integers
      { draftDefinition := some (emailDraft "Welcome"), versionDefinition := none } =
      .ok (emailDraft "Welcome", .draft) := rfl
  exact ((test_run_executes_iff hresolve (create_emailDraft "Welcome")).mpr hkept).1

/-- A subject with the word `basic`: the draft is accepted, but the worker sends `[redacted]`. -/
theorem basic_plan_redacted :
    create .integers .plain 65536
        { draftDefinition := some (emailDraft "Your Basic plan"), versionDefinition := none } =
        .ok (emailTestRun "Your Basic plan") ∧
      (runtimeStepRows .integers
          { executionMode := .test, testRun := some (emailTestRun "Your Basic plan")
            versionDefinition := none, versionSteps := [] }).map
        (fun row => Json.asString? (row.configJson.get? "subject")) = [none, some "[redacted]"] ∧
      (definitionStepRows .integers (emailDraft "Your Basic plan")).map
        (fun row => Json.asString? (row.configJson.get? "subject")) = [none, some "Your Basic plan"] ∧
      ¬ Executes .integers (emailDraft "Your Basic plan") (emailTestRun "Your Basic plan") := by
  have hstored : (runtimeStepRows .integers
      { executionMode := .test, testRun := some (emailTestRun "Your Basic plan")
        versionDefinition := none, versionSteps := [] }).map
      (fun row => Json.asString? (row.configJson.get? "subject")) = [none, some "[redacted]"] := by
    decide +kernel
  have hgiven : (definitionStepRows .integers (emailDraft "Your Basic plan")).map
      (fun row => Json.asString? (row.configJson.get? "subject")) =
      [none, some "Your Basic plan"] := by
    decide +kernel
  refine ⟨create_emailDraft _, hstored, hgiven, fun hexecutes => ?_⟩
  obtain ⟨hrows, -⟩ := hexecutes none []
  rw [hrows, hgiven] at hstored
  exact absurd hstored (by decide)

end TestRuns

end Flowmind
