import Flowmind.Js.Value

/-!
# Redacting and cutting payloads

What the applications store of a payload has gone through three passes: sensitive texts and keys are
redacted (`redact`), strings, arrays and nesting are limited (`limitValue`), and the result is
sanitised once more and cut if it is too large (`sanitizeForLog`).  The worker and the API each have
their own idea of what is sensitive (`Redaction`); the rest is shared.

* `clean` — the three passes without the last cut.
* `Kept` — the values that come through the passes unchanged, described along their structure.
* `clean_eq_self_iff` — they are exactly those.
* `get?_clean` — what becomes of one property of a record.
-/

namespace Flowmind

/-! ## The passes -/

/-- What is sensitive: whole texts, and the values of some keys.  The text that is put in their
place is not. -/
structure Redaction where
  sensitiveText : String → Bool
  sensitiveKey : String → Bool
  redacted_plain : sensitiveText "[redacted]" = false

/-- The parts of the language that the passes use: its number formats, and the URL parser. -/
structure LogLib where
  js : JsLib
  /-- A URL without credentials and secret parameters. -/
  sanitizeUrl : String → String
  sanitizeUrl_ne : ∀ s, s ≠ "" → sanitizeUrl s ≠ ""

/-- Enough to evaluate payloads without URLs. -/
def LogLib.plain : LogLib where
  js := .integers
  sanitizeUrl := id
  sanitizeUrl_ne _ := id

mutual

def redact (r : Redaction) : Json → Json
  | .null => .null
  | .bool b => .bool b
  | .num q => .num q
  | .str s => .str (if r.sensitiveText s then "[redacted]" else s)
  | .arr items => .arr (redactItems r items)
  | .obj fields => .obj (redactFields r fields)

def redactItems (r : Redaction) : List Json → List Json
  | [] => []
  | item :: items => redact r item :: redactItems r items

def redactFields (r : Redaction) : List (String × Json) → List (String × Json)
  | [] => []
  | (key, entry) :: fields =>
    (key, if r.sensitiveKey key then .str "[redacted]" else redact r entry) :: redactFields r fields

end

/-- What is left of a value that is nested too deeply. -/
def maxDepthNotice : Json :=
  .obj [("truncated", .bool true), ("reason", .str "max_depth"), ("limit", .num 8)]

def maxTextLength : ℕ := 16384

def maxArrayLength : ℕ := 200

def limitText (s : String) : Json :=
  if utf16Length s ≤ maxTextLength then .str s
  else .obj [("truncated", .bool true), ("originalSize", .num (utf16Length s)),
    ("limit", .num maxTextLength), ("preview", .str (utf16Slice s maxTextLength))]

mutual

def limitValue (depth : ℕ) : Json → Json
  | .null => if 8 < depth then maxDepthNotice else .null
  | .bool b => if 8 < depth then maxDepthNotice else .bool b
  | .num q => if 8 < depth then maxDepthNotice else .num q
  | .str s => if 8 < depth then maxDepthNotice else limitText s
  | .arr items =>
    if 8 < depth then maxDepthNotice
    else if items.length ≤ maxArrayLength then .arr (limitItems (depth + 1) items)
    else .obj [("truncated", .bool true), ("originalSize", .num items.length),
      ("limit", .num maxArrayLength),
      ("preview", .arr ((limitItems (depth + 1) items).take maxArrayLength))]
  | .obj fields => if 8 < depth then maxDepthNotice else .obj (limitFields (depth + 1) fields)

def limitItems (depth : ℕ) : List Json → List Json
  | [] => []
  | item :: items => limitValue depth item :: limitItems depth items

def limitFields (depth : ℕ) : List (String × Json) → List (String × Json)
  | [] => []
  | (key, entry) :: fields => (key, limitValue depth entry) :: limitFields depth fields

end

/-- The keys whose values are never logged. -/
def logSensitiveKeys : List String :=
  ["authorization", "proxy-authorization", "proxyauthorization", "cookie", "set-cookie", "setcookie",
    "password", "pass", "token", "accesstoken", "refreshtoken", "apikey", "api-key", "api_key",
    "api key", "xapikey", "x-api-key", "x api key", "secret", "secretvalue", "connectionsecret",
    "clientsecret", "client-secret", "client_secret", "client secret", "smtppassword", "privatekey",
    "encryptedvalue", "ciphertext", "authtag", "authTag", "iv", "encryptionkey"]

/-- The key in lower case without dashes, underscores and white space. -/
def normalizeKey (key : String) : String :=
  String.ofList (((jsToLowerCase key).toList).filter fun c => !(c ∈ ['-', '_'] || isJsSpace c))

def isLogSensitive (key : String) : Bool := decide (normalizeKey key ∈ logSensitiveKeys)

def isSchemeChar (c : Char) : Bool := c.isAlphanum || c ∈ ['+', '.', '-']

/-- What follows the scheme of a URL: `/^[a-z][a-z0-9+.-]*:\/\//i`. -/
def afterScheme? (s : List Char) : Option (List Char) :=
  match s with
  | c :: cs =>
    match c.isAlpha, cs.dropWhile isSchemeChar with
    | true, ':' :: '/' :: '/' :: rest => some rest
    | _, _ => none
  | [] => none

def maybeSanitizeUrl (lib : LogLib) (s : String) : String :=
  if (afterScheme? s.toList).isSome then lib.sanitizeUrl s else s

mutual

def sanitizeValue (lib : LogLib) : Json → Json
  | .null => .null
  | .bool b => .bool b
  | .num q => .num q
  | .str s => .str (maybeSanitizeUrl lib s)
  | .arr items => .arr (sanitizeItems lib items)
  | .obj fields => .obj (sanitizeFields lib fields)

def sanitizeItems (lib : LogLib) : List Json → List Json
  | [] => []
  | item :: items => sanitizeValue lib item :: sanitizeItems lib items

def sanitizeFields (lib : LogLib) : List (String × Json) → List (String × Json)
  | [] => []
  | (key, entry) :: fields =>
    (key, if isLogSensitive key then .str "[REDACTED]" else sanitizeValue lib entry) ::
      sanitizeFields lib fields

end

/-- What is left of a value that is too large. -/
def truncatedNotice (lib : LogLib) (maxBytes : ℕ) (v : Json) : Json :=
  .obj [("truncated", .bool true), ("originalSize", .num (v.byteLength lib.js)),
    ("preview", .str (utf16Slice (v.stringify lib.js) maxBytes))]

def truncateForLog (lib : LogLib) (maxBytes : ℕ) (v : Json) : Json :=
  if v.byteLength lib.js ≤ maxBytes then v else truncatedNotice lib maxBytes v

def sanitizeForLog (lib : LogLib) (maxBytes : ℕ) (v : Json) : Json :=
  truncateForLog lib maxBytes (sanitizeValue lib v)

/-- All passes: `sanitizeForLog(limitValue(redact(value)), { maxBytes })`. -/
def sanitize (r : Redaction) (lib : LogLib) (maxBytes : ℕ) (v : Json) : Json :=
  sanitizeForLog lib maxBytes (limitValue 0 (redact r v))

/-! ## The passes over lists -/

section Passes

variable (r : Redaction) (lib : LogLib)

@[simp] lemma redactItems_eq (items : List Json) : redactItems r items = items.map (redact r) := by
  induction items with
  | nil => rfl
  | cons item items ih => rw [redactItems, ih, List.map_cons]

@[simp] lemma limitItems_eq (depth : ℕ) (items : List Json) :
    limitItems depth items = items.map (limitValue depth) := by
  induction items with
  | nil => rfl
  | cons item items ih => rw [limitItems, ih, List.map_cons]

@[simp] lemma sanitizeItems_eq (items : List Json) :
    sanitizeItems lib items = items.map (sanitizeValue lib) := by
  induction items with
  | nil => rfl
  | cons item items ih => rw [sanitizeItems, ih, List.map_cons]

/-- The passes without the last cut. -/
def clean (depth : ℕ) (v : Json) : Json := sanitizeValue lib (limitValue depth (redact r v))

/-- What becomes of a text. -/
def cleanText (s : String) : Json :=
  sanitizeValue lib (limitText (if r.sensitiveText s then "[redacted]" else s))

/-- What becomes of a property. -/
def cleanField (depth : ℕ) (key : String) (entry : Json) : Json :=
  if isLogSensitive key then .str "[REDACTED]"
  else if r.sensitiveKey key then (if 8 < depth then maxDepthNotice else .str "[redacted]")
  else clean r lib depth entry

lemma sanitizeValue_maxDepthNotice : sanitizeValue lib maxDepthNotice = maxDepthNotice := by
  have htruncated : ¬ isLogSensitive "truncated" = true := by decide
  have hreason : ¬ isLogSensitive "reason" = true := by decide
  have hlimit : ¬ isLogSensitive "limit" = true := by decide
  have hurl : maybeSanitizeUrl lib "max_depth" = "max_depth" := if_neg (by decide)
  rw [maxDepthNotice, sanitizeValue, sanitizeFields, if_neg htruncated, sanitizeFields,
    if_neg hreason, sanitizeFields, if_neg hlimit]
  simp only [sanitizeValue, hurl, sanitizeFields]

/-- The text in place of a sensitive one comes through. -/
lemma sanitizeValue_redacted :
    sanitizeValue lib (limitText "[redacted]") = .str "[redacted]" := by
  have hlength : utf16Length "[redacted]" ≤ maxTextLength := by decide
  have hurl : maybeSanitizeUrl lib "[redacted]" = "[redacted]" := if_neg (by decide)
  rw [limitText, if_pos hlength, sanitizeValue, hurl]

lemma cleanText_of_sensitive {s : String} (h : r.sensitiveText s = true) :
    cleanText r lib s = .str "[redacted]" := by
  rw [cleanText, if_pos h, sanitizeValue_redacted]

section

variable (depth : ℕ)

@[simp] lemma clean_str (s : String) :
    clean r lib depth (.str s) = if 8 < depth then maxDepthNotice else cleanText r lib s := by
  rw [clean, redact, limitValue, cleanText]
  split_ifs with hdepth
  · exact sanitizeValue_maxDepthNotice lib
  · rfl
  · rfl

lemma clean_arr (items : List Json) (h : depth ≤ 8) (hlength : items.length ≤ maxArrayLength) :
    clean r lib depth (.arr items) = .arr (items.map (clean r lib (depth + 1))) := by
  have hdepth : ¬ 8 < depth := by omega
  simp only [clean, redact, redactItems_eq, limitValue, hdepth, if_false, List.length_map, hlength,
    if_true, limitItems_eq, sanitizeValue, sanitizeItems_eq, List.map_map]
  rfl

/-- An array that is too long becomes a record. -/
lemma clean_arr_long (items : List Json) (hlength : ¬ items.length ≤ maxArrayLength) :
    ∃ fields, clean r lib depth (.arr items) = .obj fields := by
  have hredacted : ¬ (redactItems r items).length ≤ maxArrayLength := by simpa using hlength
  rw [clean, redact, limitValue]
  split_ifs
  · exact ⟨_, sanitizeValue_maxDepthNotice lib⟩
  · exact ⟨_, by rw [sanitizeValue]⟩

lemma fields_clean (fields : List (String × Json)) :
    sanitizeFields lib (limitFields depth (redactFields r fields)) =
      fields.map fun entry => (entry.1, cleanField r lib depth entry.1 entry.2) := by
  induction fields with
  | nil => rfl
  | cons entry fields ih =>
    rw [redactFields, limitFields, sanitizeFields, ih, List.map_cons, cleanField]
    split_ifs with hlog hkey hdepth
    · rfl
    · rw [limitValue, if_pos hdepth, sanitizeValue_maxDepthNotice]
    · rw [limitValue, if_neg hdepth, sanitizeValue_redacted]
    · rfl

lemma clean_obj (fields : List (String × Json)) (h : depth ≤ 8) :
    clean r lib depth (.obj fields) =
      .obj (fields.map fun entry => (entry.1, cleanField r lib (depth + 1) entry.1 entry.2)) := by
  have hdepth : ¬ 8 < depth := by omega
  rw [← fields_clean]
  simp only [clean, redact, limitValue, hdepth, if_false, sanitizeValue]

end

/-- A value that is nested too deeply. -/
lemma clean_deep {depth : ℕ} (h : 8 < depth) (v : Json) : clean r lib depth v = maxDepthNotice := by
  have hlimit : limitValue depth (redact r v) = maxDepthNotice := by
    cases redact r v <;> exact if_pos h
  rw [clean, hlimit, sanitizeValue_maxDepthNotice]

end Passes

/-! ## What comes through -/

mutual

/-- The value comes through the passes as it is. -/
def Kept (r : Redaction) (lib : LogLib) (depth : ℕ) : Json → Prop
  | .null => depth ≤ 8
  | .bool _ => depth ≤ 8
  | .num _ => depth ≤ 8
  | .str s => depth ≤ 8 ∧ r.sensitiveText s = false ∧ utf16Length s ≤ maxTextLength ∧
      maybeSanitizeUrl lib s = s
  | .arr items => depth ≤ 8 ∧ items.length ≤ maxArrayLength ∧ KeptItems r lib (depth + 1) items
  | .obj fields => if depth ≤ 8 then KeptFields r lib (depth + 1) fields
      else .obj fields = maxDepthNotice

def KeptItems (r : Redaction) (lib : LogLib) (depth : ℕ) : List Json → Prop
  | [] => True
  | item :: items => Kept r lib depth item ∧ KeptItems r lib depth items

/-- The value of a sensitive key comes through only where it is what the passes put there. -/
def KeptFields (r : Redaction) (lib : LogLib) (depth : ℕ) : List (String × Json) → Prop
  | [] => True
  | (key, entry) :: fields =>
    (if isLogSensitive key then entry = .str "[REDACTED]"
      else if r.sensitiveKey key then
        entry = if 8 < depth then maxDepthNotice else .str "[redacted]"
      else Kept r lib depth entry) ∧ KeptFields r lib depth fields

end

section Kept

variable {r : Redaction} {lib : LogLib} {depth : ℕ}

lemma keptItems_iff {items : List Json} :
    KeptItems r lib depth items ↔ ∀ item ∈ items, Kept r lib depth item := by
  induction items with
  | nil => simp [KeptItems]
  | cons item items ih => simp [KeptItems, ih]

variable {s : String}

lemma cleanText_eq_str_iff :
    cleanText r lib s = .str s ↔
      r.sensitiveText s = false ∧ utf16Length s ≤ maxTextLength ∧ maybeSanitizeUrl lib s = s := by
  by_cases hsensitive : r.sensitiveText s = true
  · -- A sensitive text is replaced, and what replaces it is not sensitive.
    rw [cleanText_of_sensitive r lib hsensitive]
    constructor
    · intro heq
      rw [← Json.str.inj heq, r.redacted_plain] at hsensitive
      exact absurd hsensitive (by decide)
    · rintro ⟨hplain, -⟩
      rw [hplain] at hsensitive
      exact absurd hsensitive (by decide)
  · rw [cleanText, limitText]
    split_ifs with hlength
    · simp [sanitizeValue, hlength, hsensitive]
    · simp [sanitizeValue, hlength]

variable {fields : List (String × Json)}

lemma keptFields_iff
    (ih : ∀ entry ∈ fields, clean r lib depth entry.2 = entry.2 ↔ Kept r lib depth entry.2) :
    (fields.map fun entry => (entry.1, cleanField r lib depth entry.1 entry.2)) = fields ↔
      KeptFields r lib depth fields := by
  induction fields with
  | nil => simp [KeptFields]
  | cons entry fields ihfields =>
    obtain ⟨key, value⟩ := entry
    have hhead := ih (key, value) (by simp)
    have htail := ihfields fun entry hentry => ih entry (by simp [hentry])
    rw [List.map_cons, List.cons.injEq, Prod.mk.injEq, KeptFields, htail]
    refine and_congr_left fun _ => ?_
    simp only [true_and, cleanField]
    split_ifs
    · exact eq_comm
    · exact eq_comm
    · exact eq_comm
    · exact hhead

/-- Nothing but the notice itself comes through at this depth. -/
lemma kept_deep (h : 8 < depth) {v : Json} : maxDepthNotice = v ↔ Kept r lib depth v := by
  have hnot : ¬ depth ≤ 8 := by omega
  cases v with
  | obj fields =>
    rw [Kept, if_neg hnot]
    exact eq_comm
  | _ => simp [Kept, hnot, maxDepthNotice]

/-- **A value comes through the passes exactly when it is `Kept`.** -/
theorem clean_eq_self_iff {v : Json} : clean r lib depth v = v ↔ Kept r lib depth v := by
  induction v using Json.induct generalizing depth with
  | str s =>
    rw [clean_str]
    split_ifs with hdeep
    · exact kept_deep hdeep
    · rw [cleanText_eq_str_iff, Kept]
      simp [Nat.not_lt.mp hdeep]
  | arr items ih =>
    by_cases hdeep : 8 < depth
    · rw [clean_deep r lib hdeep, kept_deep hdeep]
    · by_cases hlength : items.length ≤ maxArrayLength
      · have hmap : items.map (clean r lib (depth + 1)) = items ↔
            ∀ item ∈ items, clean r lib (depth + 1) item = item := by
          simpa using List.map_inj_left (f := clean r lib (depth + 1)) (g := id) (l := items)
        rw [clean_arr r lib depth items (Nat.not_lt.mp hdeep) hlength, Json.arr.injEq, hmap, Kept,
          keptItems_iff]
        simp only [Nat.not_lt.mp hdeep, hlength, true_and]
        exact forall₂_congr fun item hitem => ih item hitem
      · obtain ⟨fields, hfields⟩ := clean_arr_long r lib depth items hlength
        simp [hfields, Kept, hlength]
  | obj fields ih =>
    by_cases hdeep : 8 < depth
    · rw [clean_deep r lib hdeep, kept_deep hdeep]
    · rw [clean_obj r lib depth fields (Nat.not_lt.mp hdeep), Json.obj.injEq, Kept,
        if_pos (Nat.not_lt.mp hdeep)]
      exact keptFields_iff fun entry hentry => ih entry hentry
  | _ =>
    rw [clean, redact, limitValue, Kept]
    split_ifs with hdeep
    · rw [sanitizeValue_maxDepthNotice]
      simp [maxDepthNotice, Nat.not_le.mpr hdeep]
    · simp [sanitizeValue, Nat.not_lt.mp hdeep]

/-! ## One property of a record -/

lemma lookup_map_snd (f : String → Json → Json) (name : String) (fields : List (String × Json)) :
    (fields.map fun entry => (entry.1, f entry.1 entry.2)).lookup name =
      (fields.lookup name).map (f name) := by
  induction fields with
  | nil => rfl
  | cons entry fields ih =>
    rw [List.map_cons, List.lookup_cons, List.lookup_cons, ih]
    split
    · rename_i heq
      rw [Option.map_some, beq_iff_eq.mp heq]
    · rfl

/-- What becomes of one property. -/
lemma get?_clean (h : depth ≤ 8) (fields : List (String × Json)) (name : String) :
    (clean r lib depth (.obj fields)).get? name =
      (fields.lookup name).map (cleanField r lib (depth + 1) name) := by
  rw [clean_obj r lib depth fields h]
  exact lookup_map_snd (cleanField r lib (depth + 1)) name fields

/-- What is left of a text, where a text is left. -/
def storedText (r : Redaction) (lib : LogLib) (s : String) : Option String :=
  Json.asString? (some (cleanText r lib s))

lemma storedText_eq_some_self_iff :
    storedText r lib s = some s ↔
      r.sensitiveText s = false ∧ utf16Length s ≤ maxTextLength ∧ maybeSanitizeUrl lib s = s := by
  rw [storedText, Json.asString?_eq_some_iff, Option.some.injEq, cleanText_eq_str_iff]

/-- A text vanishes exactly when it is too long. -/
lemma storedText_eq_none_iff :
    storedText r lib s = none ↔ r.sensitiveText s = false ∧ maxTextLength < utf16Length s := by
  by_cases hsensitive : r.sensitiveText s = true
  · simp [storedText, cleanText_of_sensitive r lib hsensitive, Json.asString?, hsensitive]
  · rw [storedText, cleanText, limitText]
    split_ifs with hlength
    · simp [sanitizeValue, Json.asString?, hlength]
    · simp [sanitizeValue, Json.asString?, hsensitive, Nat.lt_of_not_le hlength]

/-- A text that is not empty does not become empty. -/
lemma storedText_ne_empty (h : s ≠ "") : storedText r lib s ≠ some "" := by
  by_cases hsensitive : r.sensitiveText s = true
  · simp [storedText, cleanText_of_sensitive r lib hsensitive, Json.asString?]
  · rw [storedText, cleanText, limitText]
    split_ifs with hlength
    · simp only [sanitizeValue, Json.asString?, ne_eq, Option.some.injEq, maybeSanitizeUrl]
      split_ifs
      · exact lib.sanitizeUrl_ne s h
      · exact h
    · simp [sanitizeValue, Json.asString?]

/-- The passes turn nothing but texts into texts. -/
lemma asString?_clean (h : depth ≤ 8) (v : Json) :
    Json.asString? (some (clean r lib depth v)) =
      (Json.asString? (some v)).bind (storedText r lib) := by
  have hdepth : ¬ 8 < depth := by omega
  cases v with
  | str s => rw [clean_str, if_neg hdepth]; rfl
  | arr items =>
    by_cases hlength : items.length ≤ maxArrayLength
    · rw [clean_arr r lib depth items h hlength]; rfl
    · obtain ⟨fields, hfields⟩ := clean_arr_long r lib depth items hlength
      rw [hfields]; rfl
  | obj fields => rw [clean_obj r lib depth fields h]; rfl
  | _ => rw [clean, redact, limitValue, if_neg hdepth]; rfl

/-- A text property of a stored record that was small enough. -/
lemma asString?_field_sanitize {maxBytes : ℕ} {name : String} (hlog : isLogSensitive name = false)
    (hkey : r.sensitiveKey name = false)
    (hfits : (clean r lib 0 (.obj fields)).byteLength lib.js ≤ maxBytes) :
    Json.asString? (Json.field (some (sanitize r lib maxBytes (.obj fields))) name) =
      (Json.asString? (Json.field (some (.obj fields)) name)).bind (storedText r lib) := by
  have hsanitize : sanitize r lib maxBytes (.obj fields) = clean r lib 0 (.obj fields) := if_pos hfits
  simp only [Json.field, Option.bind_some, hsanitize, get?_clean (Nat.zero_le 8)]
  cases hlookup : fields.lookup name with
  | none => simp [Json.get?, hlookup, Json.asString?]
  | some v =>
    simp only [Option.map_some, cleanField, hlog, hkey, Json.get?, hlookup]
    exact asString?_clean (by decide) v

/-- The notice in place of a record that was too large has none of its properties. -/
lemma field_sanitize_large {maxBytes : ℕ} {name : String}
    (hname : name ∉ ["truncated", "originalSize", "preview"])
    (hlarge : ¬ (clean r lib 0 (.obj fields)).byteLength lib.js ≤ maxBytes) :
    Json.field (some (sanitize r lib maxBytes (.obj fields))) name = none := by
  have hsanitize : sanitize r lib maxBytes (.obj fields) =
      truncatedNotice lib maxBytes (clean r lib 0 (.obj fields)) := if_neg hlarge
  simp only [List.mem_cons, not_or, ← beq_eq_false_iff_ne] at hname
  simp [Json.field, hsanitize, truncatedNotice, Json.get?, List.lookup_cons, hname]

end Kept

end Flowmind
