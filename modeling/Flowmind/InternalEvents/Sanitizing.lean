import Flowmind.InternalEvents.Emitter
import Flowmind.Js.Fields
import Flowmind.Sanitize.Sharing

/-!
# The data of record events

What an event says about a record goes through `sanitizeInternalEventData` before it is stored: it
redacts and cuts the value of the record, and the fields that identify the record along with it.
The filters of event triggers read these fields from what is stored.

* `redaction_complete` — what is stored under a sensitive key does not get out.
* `emittedData` — the data that the emitter stores.
* `Emission.envelope_of_emit` — it is what the new event has.
* `get?_emittedData_of_fits`, `get?_emittedData_of_exceeds` — the fields are stored unless the whole
  exceeds the limit on its size; then nothing of them is left.
* `matches_stored_iff` — when a trigger sees the same in the stored event as in its data.
-/

namespace Flowmind.InternalEvents

open Store
open DataStores (assertDataStoreKey)

/-! ## Sanitising

`INTERNAL_EVENT_LIMITS`. -/

def dataBytes : ℕ := 32768

def maxDataDepth : ℕ := 8

def maxKeys : ℕ := 500

def maxItems : ℕ := 100

def maxStringLength : ℕ := 8192

def sensitiveKeys : List String :=
  ["authorization", "cookie", "token", "password", "secret", "credential", "apikey",
    "encryptedvalue", "headers", "contextjson"]

/-- The letters and digits of a key, in lower case. -/
def normalizedKey (key : String) : String :=
  jsToLowerCase (String.ofList (key.toList.filter Char.isAlphanum))

def isSensitive (key : String) : Bool := sensitiveKeys.any (jsIncludes (normalizedKey key))

/-- What is counted and noted on the way. -/
structure SanitizeState where
  keys : ℕ := 0
  omitted : Bool := false
deriving DecidableEq, Repr

def SanitizeState.omitting (state : SanitizeState) : SanitizeState := { state with omitted := true }

mutual

def sanitize (value : Json) (depth : ℕ) (state : SanitizeState) : Json × SanitizeState :=
  if maxDataDepth < depth then (.str "[TRUNCATED]", state.omitting)
  else
    match value with
    | .null => (.null, state)
    | .bool b => (.bool b, state)
    | .num q => (.num q, state)
    | .str s =>
      (.str (utf16Slice s maxStringLength),
        if maxStringLength < utf16Length s then state.omitting else state)
    | .arr items =>
      let result := sanitizeItems items maxItems (depth + 1)
        (if maxItems < items.length then state.omitting else state)
      (.arr result.1, result.2)
    | .obj fields =>
      let result := sanitizeFields fields (depth + 1) state
      (.obj result.1, result.2)

/-- The first items of an array. -/
def sanitizeItems : List Json → ℕ → ℕ → SanitizeState → List Json × SanitizeState
  | [], _, _, state => ([], state)
  | _ :: _, 0, _, state => ([], state)
  | item :: items, limit + 1, depth, state =>
    let first := sanitize item depth state
    let rest := sanitizeItems items limit depth first.2
    (first.1 :: rest.1, rest.2)

def sanitizeFields :
    List (String × Json) → ℕ → SanitizeState → List (String × Json) × SanitizeState
  | [], _, state => ([], state)
  | (key, entry) :: fields, depth, state =>
    let state := { state with keys := state.keys + 1 }
    if maxKeys < state.keys then ([], state.omitting)
    else
      let first :=
        if isSensitive key then (.str "[REDACTED]", state) else sanitize entry depth state
      let rest := sanitizeFields fields depth first.2
      ((key, first.1) :: rest.1, rest.2)

end

/-- An object; any other value is taken for an empty one. -/
def asObject : Json → List (String × Json)
  | .obj fields => fields
  | _ => []

/-- What is left of an event: its data, whether something is missing, and the size it had. -/
structure Sanitized where
  data : List (String × Json)
  omitted : Bool
  originalBytes : ℕ

/-- The notice in place of data that is too large. -/
def omission (originalBytes : ℕ) : List (String × Json) :=
  [("valueOmitted", .bool true), ("valueSizeBytes", .num originalBytes)]

def sanitizeInternalEventData (js : JsLib) (value : Json) : Sanitized :=
  let originalBytes := value.byteLength js
  let result := sanitize value 0 {}
  let data := asObject result.1
  if dataBytes < (Json.obj data).byteLength js then ⟨omission originalBytes, true, originalBytes⟩
  else ⟨data, result.2.omitted, originalBytes⟩

/-! ## What is hidden -/

mutual

lemma sanitize_hide : ∀ v depth state, sanitize (hide isSensitive v) depth state =
    sanitize v depth state
  | .null, _, _ | .bool _, _, _ | .num _, _, _ | .str _, _, _ => rfl
  | .arr items, depth, state => by
    rw [hide, sanitize, sanitize, sanitizeItems_hideItems, length_hideItems]
  | .obj fields, depth, state => by
    rw [hide, sanitize, sanitize, sanitizeFields_hideFields]

lemma sanitizeItems_hideItems : ∀ items limit depth state,
    sanitizeItems (hideItems isSensitive items) limit depth state =
      sanitizeItems items limit depth state
  | [], _, _, _ => rfl
  | _ :: _, 0, _, _ => by rw [hideItems, sanitizeItems, sanitizeItems]
  | item :: items, limit + 1, depth, state => by
    rw [hideItems, sanitizeItems, sanitizeItems, sanitize_hide, sanitizeItems_hideItems]

lemma sanitizeFields_hideFields : ∀ fields depth state,
    sanitizeFields (hideFields isSensitive fields) depth state = sanitizeFields fields depth state
  | [], _, _ => rfl
  | (key, entry) :: fields, depth, state => by
    rw [hideFields, sanitizeFields, sanitizeFields]
    by_cases hkey : isSensitive key = true
    · simp only [hkey, if_true, sanitizeFields_hideFields]
    · simp only [hkey, Bool.false_eq_true, if_false, sanitize_hide, sanitizeFields_hideFields]

end

/-- **What is stored under a sensitive key reaches no output**, of any of the three passes over
payloads: values that differ only there give the same result.  The size of an event's data is an
output of its own. -/
theorem redaction_complete (lib : LogLib) (maxBytes : ℕ) (v v' : Json) :
    (hide publicRedaction.sensitiveKey v = hide publicRedaction.sensitiveKey v' →
      sanitizePublic lib maxBytes v = sanitizePublic lib maxBytes v') ∧
    (hide persistedRedaction.sensitiveKey v = hide persistedRedaction.sensitiveKey v' →
      sanitizePersisted lib maxBytes v = sanitizePersisted lib maxBytes v') ∧
    (hide isSensitive v = hide isSensitive v' → v.byteLength lib.js = v'.byteLength lib.js →
      sanitizeInternalEventData lib.js v = sanitizeInternalEventData lib.js v') := by
  refine ⟨fun h => sanitize_congr publicRedaction h lib maxBytes,
    fun h => sanitize_congr persistedRedaction h lib maxBytes, fun h hsize => ?_⟩
  have hsame : sanitize v 0 {} = sanitize v' 0 {} := by
    rw [← sanitize_hide v, h, sanitize_hide v']
  rw [sanitizeInternalEventData, sanitizeInternalEventData, hsame, hsize]

/-- An item with a token. -/
def withToken (token : String) : Json :=
  .obj [("items", .arr [.obj [("id", .num 1), ("token", .str token)]])]

/-- Two tokens of the same length, inside an array. -/
theorem redaction_complete_token :
    sanitizePublic .plain 64 (withToken "a") = sanitizePublic .plain 64 (withToken "b") ∧
    sanitizePersisted .plain 64 (withToken "a") = sanitizePersisted .plain 64 (withToken "b") ∧
    sanitizeInternalEventData .integers (withToken "a") =
      sanitizeInternalEventData .integers (withToken "b") := by
  obtain ⟨hpublic, hpersisted, hevent⟩ := redaction_complete .plain 64 (withToken "a") (withToken "b")
  exact ⟨hpublic rfl, hpersisted rfl, hevent rfl (by decide +kernel)⟩

/-- The data that the emitter stores, with a notice if something is missing. -/
def emittedData (js : JsLib) (value : Json) : Json :=
  let sanitized := sanitizeInternalEventData js value
  .obj (if sanitized.omitted then
      spread sanitized.data (omission sanitized.originalBytes)
    else sanitized.data)

/-! ## What the emitter stores -/

/-- What is emitted after its data has been sanitised. -/
def Emission.sanitized (js : JsLib) (emission : Emission) : Emission :=
  { emission with data := emittedData js emission.data }

/-- The envelope that the emitter stores. -/
def Emission.stored (js : JsLib) (emission : Emission) : Envelope :=
  ⟨some emission.type, emission.organizationId, emittedData js emission.data⟩

/-- The envelope with the data as it is. -/
def Emission.unsanitized (emission : Emission) : Envelope :=
  ⟨some emission.type, emission.organizationId, emission.data⟩

variable {s s' : Data}

lemma Data.get?_addEvent {row : EventRow} (h : s.addEvent row = some s') (id : String) :
    s'.events.get? id = if row.id = id then some row else s.events.get? id := by
  obtain ⟨hfresh, ⟨⟩⟩ := Option.dite_none_right_eq_some.mp h
  exact Table.get?_insert _ _ hfresh id

lemma Data.events_addChain {rootEventId organizationId : String}
    (h : s.addChain rootEventId organizationId = some s') : s'.events = s.events := by
  obtain ⟨hfresh, ⟨⟩⟩ := Option.dite_none_right_eq_some.mp h
  rfl

variable {emission : Emission}

/-- The only event that a suppression adds is the diagnostic one. -/
lemma Data.events_suppress {diagnosticId rootEventId : String} {reason : SuppressReason}
    (h : s.suppress emission diagnosticId rootEventId reason = some s') {id : String}
    (hid : id ≠ diagnosticId) : s'.events.get? id = s.events.get? id := by
  obtain ⟨s₁, hchain, hadd⟩ := Option.bind_eq_some_iff.mp h
  rw [Data.get?_addEvent hadd, Data.events_addChain hchain]
  exact if_neg hid.symm

variable {js : JsLib}

/-- **The event that is stored has the data as it has been sanitised.** -/
lemma Emission.envelope_of_emit {limits : Limits} {id diagnosticId : String}
    (hfresh : s.events.get? id = none) (hids : id ≠ diagnosticId)
    (h : emit limits s (emission.sanitized js) id diagnosticId = some s') {row : EventRow}
    (hrow : s'.events.get? id = some row) : row.envelope = emission.stored js := by
  have hsuppressed : ∀ {root reason}, s.suppress (emission.sanitized js) diagnosticId root reason =
      some s' → row.envelope = emission.stored js := by
    intro root reason hsuppress
    rw [Data.events_suppress hsuppress hids, hfresh] at hrow
    cases hrow
  simp only [emit] at h
  split_ifs at h
  · exact hsuppressed h
  · obtain ⟨s₁, -, hadd⟩ := Option.bind_eq_some_iff.mp h
    cases ((Data.get?_addEvent hadd id).trans (if_pos rfl)).symm.trans hrow
    rfl
  · exact hsuppressed h
  · cases ((Data.get?_addEvent h id).trans (if_pos rfl)).symm.trans hrow
    rfl

/-! ## Record events -/

/-- `DataStoreRecordEventData`, as the upserts and deletions of records fill it in. -/
structure RecordEventData where
  dataStoreId : String
  recordId : String
  key : String
  version : ℕ
  previousVersion : Option ℕ
  value : Json

def RecordEventData.json (data : RecordEventData) : Json :=
  .obj ([("dataStoreId", .str data.dataStoreId), ("recordId", .str data.recordId),
      ("key", .str data.key), ("version", .num data.version)] ++
    (data.previousVersion.map fun version => ("previousVersion", Json.num version)).toList ++
    [("value", data.value)])

/-- The types of record events. -/
def recordEventTypes : List EventType :=
  [.dataStoreRecordCreated, .dataStoreRecordUpdated, .dataStoreRecordDeleted]

/-! ## The fields that identify a record -/

/-- The result of sanitising fields that begin with a text under a key that is not sensitive. -/
lemma sanitizeFields_str_cons {key : String} (hkey : isSensitive key = false) (s : String)
    (fields : List (String × Json)) {state : SanitizeState} (hcount : state.keys < maxKeys) :
    ∃ state' : SanitizeState, state'.keys = state.keys + 1 ∧
      (sanitizeFields ((key, .str s) :: fields) 1 state).1 =
        (key, .str (utf16Slice s maxStringLength)) :: (sanitizeFields fields 1 state').1 := by
  have hkept : ¬maxKeys < state.keys + 1 := by omega
  have hdepth : ¬maxDataDepth < 1 := by decide
  refine ⟨(sanitize (.str s) 1 { state with keys := state.keys + 1 }).2, ?_, ?_⟩
  · rw [sanitize]
    split_ifs <;> rfl
  · simp [sanitizeFields, sanitize, hkept, hdepth, hkey]

/-- **The fields that identify a record come first**, so that no limit but the one on texts affects
them. -/
lemma exists_sanitize_json (data : RecordEventData) :
    ∃ rest, asObject (sanitize data.json 0 {}).1 =
      ("dataStoreId", .str (utf16Slice data.dataStoreId maxStringLength)) ::
        ("recordId", .str (utf16Slice data.recordId maxStringLength)) ::
        ("key", .str (utf16Slice data.key maxStringLength)) :: rest := by
  have hobj (fields : List (String × Json)) :
      asObject (sanitize (.obj fields) 0 {}).1 = (sanitizeFields fields 1 {}).1 := by
    rfl
  have hzero : (({} : SanitizeState)).keys < maxKeys := by decide
  rw [RecordEventData.json, hobj]
  simp only [List.cons_append]
  obtain ⟨state₁, hkeys₁, hfirst⟩ := sanitizeFields_str_cons
    (show isSensitive "dataStoreId" = false by decide +kernel) data.dataStoreId _ hzero
  obtain ⟨state₂, hkeys₂, hsecond⟩ := sanitizeFields_str_cons
    (show isSensitive "recordId" = false by decide +kernel) data.recordId _
    (show state₁.keys < maxKeys by rw [hkeys₁]; decide)
  obtain ⟨state₃, -, hthird⟩ := sanitizeFields_str_cons
    (show isSensitive "key" = false by decide +kernel) data.key _
    (show state₂.keys < maxKeys by rw [hkeys₂, hkeys₁]; decide)
  exact ⟨_, by rw [hfirst, hsecond, hthird]⟩

variable {name : String}

/-- The size of what is sanitised is within the limit. -/
def Fits (js : JsLib) (value : Json) : Prop :=
  (Json.obj (asObject (sanitize value 0 {}).1)).byteLength js ≤ dataBytes

instance (js : JsLib) (value : Json) : Decidable (Fits js value) :=
  inferInstanceAs (Decidable (_ ≤ _))

/-- Within the limit on the size, the fields of the data are stored as they have been sanitised. -/
lemma get?_emittedData_of_fits {value : Json} (hfits : Fits js value)
    (hname : ∀ size, (omission size).lookup name = none) :
    (emittedData js value).get? name = (asObject (sanitize value 0 {}).1).lookup name := by
  rw [emittedData, sanitizeInternalEventData, if_neg (Nat.not_lt.mpr hfits)]
  split_ifs
  · exact lookup_spread_of_none (hname _) _
  · rfl

/-- Over the limit on the size, no field of the data is left. -/
lemma get?_emittedData_of_exceeds {value : Json} (hfits : ¬Fits js value)
    (hname : ∀ size, (omission size).lookup name = none) :
    (emittedData js value).get? name = none := by
  rw [emittedData, sanitizeInternalEventData, if_pos (Nat.lt_of_not_le hfits), Json.get?]
  rw [if_pos rfl, lookup_spread_of_none (hname _), hname]

/-! ## Filters -/

variable {value : Option Json}

lemma field_eq_none (h : name ∉ fieldNames value) : Json.field value name = none := by
  rcases value with _ | v
  · rfl
  · cases v with
    | obj fields =>
      rw [Json.field, Option.bind_some, Json.get?, List.lookup_eq_none_iff]
      intro field hmem
      rw [bne_iff_ne]
      rintro rfl
      exact h (List.mem_map_of_mem hmem)
    | _ => rfl

/-- A filter that is accepted is within its limit. -/
lemma utf16Length_of_requiredString {wanted : String} {max : ℕ}
    (h : requiredString value name max = .ok (some wanted)) : utf16Length wanted ≤ max := by
  unfold requiredString at h
  split at h
  · cases h
  · split_ifs at h with hlength
    cases h
    exact (utf16Length_jsTrim_le _).trans (Nat.le_of_not_lt fun hlt => hlength (.inr hlt))
  · cases h

variable {filters : EventTriggerFilters}

/-- The filters of a trigger for record events: the id of the data store, which is short, and the
start of the key. -/
lemma filters_of_normalize {type : EventType} (htype : type ∈ recordEventTypes)
    (h : normalizeEventTriggerFilters type value = .ok filters) :
    (∀ wanted, filters.dataStoreId = some wanted → utf16Length wanted ≤ 128) ∧
      filters.workflowId = none ∧ filters.origin = none := by
  have hallowed : type.allowedFilters = ["dataStoreId", "keyPrefix"] := by
    simp only [recordEventTypes, List.mem_cons, List.not_mem_nil, or_false] at htype
    rcases htype with rfl | rfl | rfl <;> rfl
  unfold normalizeEventTriggerFilters at h
  split at h
  · cases h
  · rename_i hnames
    have hnone (name : String) (hname : name ∉ type.allowedFilters) :
        Json.field value name = none := by
      refine field_eq_none fun hmem => ?_
      have := List.find?_eq_none.mp hnames name hmem
      simp [hname] at this
    rw [hnone "workflowId" (by rw [hallowed]; decide), hnone "origin" (by rw [hallowed]; decide)]
      at h
    cases hid : requiredString (Json.field value "dataStoreId") "dataStoreId" 128 with
    | error message => simp [hid, bind, Except.bind] at h
    | ok dataStoreId =>
      cases hprefix : requiredString (Json.field value "keyPrefix") "keyPrefix" 256 with
      | error message => simp [hid, hprefix, bind, Except.bind] at h
      | ok keyPrefix =>
        rw [hid, hprefix] at h
        cases h
        refine ⟨fun wanted hwanted => ?_, rfl, rfl⟩
        rw [show dataStoreId = some wanted from hwanted] at hid
        exact utf16Length_of_requiredString hid

/-- What a trigger for record events looks at. -/
lemma matchesInternalEvent_of_record {envelope : Envelope} (hworkflow : filters.workflowId = none)
    (horigin : filters.origin = none) :
    matchesInternalEvent envelope filters =
      (meetsFilter filters.dataStoreId (fun wanted =>
          decide (Json.asString? (envelope.data.get? "dataStoreId") = some wanted)) &&
        meetsFilter filters.keyPrefix (fun wanted =>
          (Json.asString? (envelope.data.get? "key")).any fun key =>
            wanted.toList.isPrefixOf key.toList)) := by
  simp [matchesInternalEvent, hworkflow, horigin, meetsFilter]

/-- A filter is met by two checks alike if they agree on it. -/
lemma meetsFilter_congr {filter : Option String} {check check' : String → Bool}
    (h : ∀ wanted, filter = some wanted → check wanted = check' wanted) :
    meetsFilter filter check = meetsFilter filter check' := by
  cases filter with
  | none => rfl
  | some wanted => exact h wanted rfl

/-- Within the limit on the size, a trigger sees the same in what is stored. -/
lemma matches_stored_of_fits {data : RecordEventData} (hdata : emission.data = data.json)
    (hkey : assertDataStoreKey data.key = .ok data.key)
    (hshort : ∀ wanted, filters.dataStoreId = some wanted → utf16Length wanted ≤ 128)
    (hworkflow : filters.workflowId = none) (horigin : filters.origin = none)
    (hfits : Fits js data.json) :
    matchesInternalEvent (emission.stored js) filters =
      matchesInternalEvent emission.unsanitized filters := by
  obtain ⟨rest, hrest⟩ := exists_sanitize_json data
  have hid : (emission.stored js).data.get? "dataStoreId" =
      some (.str (utf16Slice data.dataStoreId maxStringLength)) := by
    rw [Emission.stored, hdata, get?_emittedData_of_fits hfits fun _ => rfl]
    rfl
  have hstored : (emission.stored js).data.get? "key" = some (.str data.key) := by
    have hshort : utf16Length data.key ≤ maxStringLength :=
      (DataStores.utf16Length_le_of_assertDataStoreKey hkey).trans (by decide)
    rw [Emission.stored, hdata, get?_emittedData_of_fits hfits fun _ => rfl, hrest,
      utf16Slice_eq_self hshort]
    rfl
  have hid' : emission.unsanitized.data.get? "dataStoreId" = some (.str data.dataStoreId) := by
    rw [Emission.unsanitized, hdata]
    rfl
  have hkey' : emission.unsanitized.data.get? "key" = some (.str data.key) := by
    rw [Emission.unsanitized, hdata]
    rfl
  rw [matchesInternalEvent_of_record hworkflow horigin,
    matchesInternalEvent_of_record hworkflow horigin, hid, hid', hstored, hkey']
  congr 1
  refine meetsFilter_congr fun wanted hwanted => ?_
  have hlimit : utf16Length wanted + 1 < maxStringLength := by
    have := hshort wanted hwanted
    simp only [maxStringLength]
    omega
  simp [Json.asString?, utf16Slice_eq_iff hlimit]

/-- Over the limit on the size, only a trigger without filters sees anything. -/
lemma matches_stored_of_exceeds (hworkflow : filters.workflowId = none)
    (horigin : filters.origin = none) (hfits : ¬Fits js emission.data) :
    matchesInternalEvent (emission.stored js) filters = true ↔
      filters.dataStoreId = none ∧ filters.keyPrefix = none := by
  have hid : (emission.stored js).data.get? "dataStoreId" = none :=
    get?_emittedData_of_exceeds hfits fun _ => rfl
  have hkey : (emission.stored js).data.get? "key" = none :=
    get?_emittedData_of_exceeds hfits fun _ => rfl
  rw [matchesInternalEvent_of_record hworkflow horigin, hid, hkey]
  cases filters.dataStoreId <;> cases filters.keyPrefix <;>
    simp [meetsFilter, Json.asString?]

/-- **A trigger sees the same in the stored event as in its data** exactly if the event is within
the limit on its size, or the trigger has no filters, or it does not match the data either. -/
theorem matches_stored_iff (js : JsLib) (emission : Emission) (data : RecordEventData)
    (hdata : emission.data = data.json) (htype : emission.type ∈ recordEventTypes)
    (hkey : assertDataStoreKey data.key = .ok data.key) (value : Option Json)
    (filters : EventTriggerFilters)
    (hfilters : normalizeEventTriggerFilters emission.type value = .ok filters) :
    matchesInternalEvent (emission.stored js) filters =
        matchesInternalEvent emission.unsanitized filters ↔
      Fits js data.json ∨ (filters.dataStoreId = none ∧ filters.keyPrefix = none) ∨
        matchesInternalEvent emission.unsanitized filters = false := by
  obtain ⟨hshort, hworkflow, horigin⟩ := filters_of_normalize htype hfilters
  by_cases hfits : Fits js data.json
  · simp [hfits, matches_stored_of_fits hdata hkey hshort hworkflow horigin hfits]
  · have hexceeds := matches_stored_of_exceeds hworkflow horigin
      (show ¬Fits js emission.data by rwa [hdata])
    by_cases hnone : filters.dataStoreId = none ∧ filters.keyPrefix = none
    · have hall : matchesInternalEvent emission.unsanitized filters = true := by
        rw [matchesInternalEvent_of_record hworkflow horigin, hnone.1, hnone.2]
        rfl
      simp [hnone, hall, hexceeds]
    · have hnot : matchesInternalEvent (emission.stored js) filters = false := by
        rw [← Bool.not_eq_true, hexceeds]
        exact hnone
      simp only [hnot, hfits, hnone, false_or]
      exact eq_comm

/-- The filter of a trigger for the records of one data store. -/
def storeFilter : Option Json := some (.obj [("dataStoreId", .str "store")])

/-- A record has been created. -/
def recordCreated (value : Json) : Emission :=
  ⟨"org", .dataStoreRecordCreated,
    (RecordEventData.mk "store" "record" "k" 1 none value).json, none, {}⟩

theorem matches_stored_iff_of_small :
    matchesInternalEvent ((recordCreated .null).stored .integers) ⟨some "store", none, none, none⟩ =
      matchesInternalEvent (recordCreated .null).unsanitized ⟨some "store", none, none, none⟩ :=
  (matches_stored_iff .integers (recordCreated .null) ⟨"store", "record", "k", 1, none, .null⟩ rfl
    (by decide) (by rw [DataStores.assertDataStoreKey]; decide +kernel) storeFilter _ rfl).mpr
    (.inl (by decide +kernel))

/-! ## A large record -/

/-- A text of letters. -/
def letters (n : ℕ) : String := String.ofList (List.replicate n 'a')

lemma utf16Length_letters (n : ℕ) : utf16Length (letters n) = n := by
  rw [letters, utf16Length_ofList, List.map_replicate, List.sum_replicate_nat,
    show utf16Width 'a' = 1 from rfl, Nat.mul_one]

lemma utf8ByteSize_letters (n : ℕ) : (letters n).utf8ByteSize = n := by
  rw [letters, utf8ByteSize_ofList, List.map_replicate, List.sum_replicate_nat,
    show Char.utf8Size 'a' = 1 from rfl, Nat.mul_one]

lemma quote_letters (n : ℕ) : quote (letters n) = "\"" ++ letters n ++ "\"" := by
  refine quote_of_plain fun c hc => ?_
  rw [List.eq_of_mem_replicate hc]
  rfl

/-- A value with one text several times. -/
def fiveTimes (text : String) : Json :=
  .arr [.str text, .str text, .str text, .str text, .str text]

lemma stringify_fiveTimes (js : JsLib) (text : String) :
    (fiveTimes text).stringify js = "[" ++ (quote text ++ "," ++ quote text ++ "," ++
      quote text ++ "," ++ quote text ++ "," ++ quote text) ++ "]" := rfl

variable {text : String}

/-- The value in memory. -/
def fiveTimesRef (text : String) : Ref :=
  .arr 0 [.str text, .str text, .str text, .str text, .str text]

/-- A data store accepts the value if it is written within 64000 code units. -/
lemma isOk_assertDataStoreValue_fiveTimes (js : JsLib) (htext : utf16Length text ≤ 8000)
    (hquote : utf16Length (quote text) ≤ 8002) :
    ((fiveTimesRef text).assertDataStoreValue js).isOk = true := by
  have hlength : utf16Length ((fiveTimes text).stringify js) ≤ 40016 := by
    have hbracket : utf16Length "[" = 1 ∧ utf16Length "]" = 1 ∧ utf16Length "," = 1 := by decide
    rw [stringify_fiveTimes]
    simp only [utf16Length_append]
    omega
  have hshort : utf16Length text ≤ 32000 := htext.trans (by decide)
  have htree : (fiveTimesRef text).tree = fiveTimes text := rfl
  refine Ref.isOk_assertSafeJson_iff.mpr ⟨List.nodup_singleton 0, fun part hpart => ?_, ?_, ?_⟩
  · simp only [htree, fiveTimes, Ref.parts, Ref.partsItems, List.append_nil, List.cons_append,
      List.nil_append, List.mem_cons, List.not_mem_nil, or_false, or_self] at hpart
    rcases hpart with rfl | rfl
    · exact ⟨by decide, by simp [Ref.dataStoreRules, DataStores.maxArrayItems]⟩
    · exact ⟨by decide, hshort⟩
  · change 6 ≤ 10000
    decide
  · exact hlength.trans (by decide)

/-- Sanitising keeps the value as it is. -/
lemma sanitize_fiveTimes (htext : utf16Length text ≤ 8000) (state : SanitizeState) :
    sanitize (fiveTimes text) 1 state = (fiveTimes text, state) := by
  have hlimit : ¬maxStringLength < utf16Length text := by
    simp only [maxStringLength]
    omega
  simp [fiveTimes, sanitize, sanitizeItems, maxDataDepth, maxItems, hlimit,
    utf16Slice_eq_self (Nat.le_of_not_lt hlimit)]

lemma sanitize_short (htext : utf16Length text ≤ maxStringLength) (state : SanitizeState) :
    sanitize (.str text) 1 state = (.str text, state) := by
  rw [sanitize, if_neg (by decide), utf16Slice_eq_self htext, if_neg (Nat.not_lt.mpr htext)]

/-- Nothing in the data of the event is changed. -/
lemma sanitize_recordCreated (htext : utf16Length text ≤ 8000) :
    (sanitize (recordCreated (fiveTimes text)).data 0 {}).1 =
      (recordCreated (fiveTimes text)).data := by
  have hsensitive : isSensitive "dataStoreId" = false ∧ isSensitive "recordId" = false ∧
      isSensitive "key" = false ∧ isSensitive "version" = false ∧ isSensitive "value" = false := by
    decide +kernel
  have hstore := sanitize_short (show utf16Length "store" ≤ maxStringLength by decide)
  have hrecord := sanitize_short (show utf16Length "record" ≤ maxStringLength by decide)
  have hkey := sanitize_short (show utf16Length "k" ≤ maxStringLength by decide)
  have hversion (state : SanitizeState) : sanitize (.num 1) 1 state = (.num 1, state) := rfl
  rw [recordCreated, RecordEventData.json, sanitize]
  simp [sanitizeFields, hsensitive, maxKeys, hstore, hrecord, hkey, hversion,
    sanitize_fiveTimes htext]

/-- The data of the event is larger than the value. -/
lemma not_fits_fiveTimes (htext : utf16Length text ≤ 8000)
    (hbytes : 8000 ≤ (quote text).utf8ByteSize) :
    ¬Fits .integers (recordCreated (fiveTimes text)).data := by
  have hstringify : (recordCreated (fiveTimes text)).data.stringify .integers =
      "\x7b" ++ ((quote "dataStoreId" ++ ":" ++ quote "store") ++ "," ++
        (quote "recordId" ++ ":" ++ quote "record") ++ "," ++ (quote "key" ++ ":" ++ quote "k") ++
        "," ++ (quote "version" ++ ":" ++ JsLib.integers.numberToString (1 : ℕ)) ++ "," ++
        (quote "value" ++ ":" ++ (fiveTimes text).stringify .integers)) ++ "\x7d" := rfl
  have hobj : Json.obj (asObject (recordCreated (fiveTimes text)).data) =
      (recordCreated (fiveTimes text)).data := rfl
  rw [Fits, sanitize_recordCreated htext, hobj, Json.byteLength, hstringify, stringify_fiveTimes]
  simp only [String.utf8ByteSize_append, dataBytes]
  omega

/-- **The event of a large record does not say what record it is about**: a trigger for its data
store does not match it. -/
theorem large_record_not_matched :
    assertDataStoreKey "k" = .ok "k" ∧
      (fiveTimesRef (letters 8000)).assertDataStoreValue .integers =
        .ok (fiveTimes (letters 8000)) ∧
      normalizeEventTriggerFilters .dataStoreRecordCreated storeFilter =
        .ok ⟨some "store", none, none, none⟩ ∧
      matchesInternalEvent (recordCreated (fiveTimes (letters 8000))).unsanitized
        ⟨some "store", none, none, none⟩ = true ∧
      matchesInternalEvent ((recordCreated (fiveTimes (letters 8000))).stored .integers)
        ⟨some "store", none, none, none⟩ = false := by
  have htext : utf16Length (letters 8000) ≤ 8000 := (utf16Length_letters 8000).le
  have hquote : utf16Length (quote (letters 8000)) = 8002 := by
    rw [quote_letters, utf16Length_append, utf16Length_append, utf16Length_letters]
    decide
  have hbytes : 8000 ≤ (quote (letters 8000)).utf8ByteSize := by
    rw [quote_letters, String.utf8ByteSize_append, String.utf8ByteSize_append,
      utf8ByteSize_letters]
    omega
  have hfits := not_fits_fiveTimes htext hbytes
  refine ⟨by decide +kernel, Ref.assertDataStoreValue_eq (isOk_assertDataStoreValue_fiveTimes _ htext hquote.le), rfl, rfl, ?_⟩
  rw [← Bool.not_eq_true, matches_stored_of_exceeds rfl rfl hfits]
  simp

end Flowmind.InternalEvents
