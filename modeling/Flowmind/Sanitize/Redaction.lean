import Flowmind.Sanitize.Payload

/-!
# What is sensitive

The worker redacts what it stores of a step (`sanitizePersisted`), the API what it stores of a test
run and what it shows (`sanitizePublic`).  Both look for words such as `token` or `password` in
every text, whatever it is used for, and for the keys that hold secrets; the API knows more words
and keys and some formats of credentials.

* `hide` — a value without what is stored under sensitive keys.
* `sanitize_congr` — it decides what the passes return.
-/

namespace Flowmind

/-! ## Texts -/

/-- `[a-z0-9]`, in either case. -/
def isWordChar (c : Char) : Bool := c.isAlphanum

/-- The text ends here, or the word does. -/
def atWordEnd : List Char → Bool
  | [] => true
  | c :: _ => !isWordChar c

/-- One of the words stands somewhere in the text, between characters that are not part of a word:
`/(^|[^a-z0-9])(…)([^a-z0-9]|$)/i`.  The flag says whether a word may begin here. -/
def containsWord (words : List (List Char)) : Bool → List Char → Bool
  | _, [] => false
  | start, c :: cs =>
    (start && words.any fun word =>
      word.isPrefixOf ((c :: cs).map Char.toLower) && atWordEnd ((c :: cs).drop word.length)) ||
    containsWord words (!isWordChar c) cs

/-- The words both applications look for. -/
def sensitiveWords : List (List Char) :=
  (["authorization", "cookie", "token", "secret", "password", "apikey", "api-key", "api_key",
    "api key"]).map String.toList

def containsSensitiveWord (s : String) : Bool := containsWord sensitiveWords true s.toList

/-- `[a-zA-Z0-9_-]`. -/
def isTokenChar (c : Char) : Bool := c.isAlphanum || c ∈ ['_', '-']

/-- A run of at least ten such characters, and what follows it. -/
def tokenRun? (s : List Char) : Option (List Char) :=
  if 10 ≤ (s.takeWhile isTokenChar).length then some (s.dropWhile isTokenChar) else none

/-- A JSON web token begins here. -/
def isJwt : List Char → Bool
  | 'e' :: 'y' :: 'J' :: rest =>
    match tokenRun? rest with
    | some ('.' :: rest) =>
      match tokenRun? rest with
      | some ('.' :: rest) => (tokenRun? rest).isSome
      | _ => false
    | _ => false
  | _ => false

/-- A private key begins here: `-----BEGIN [A-Z ]+PRIVATE KEY-----`. -/
def isPrivateKey (s : List Char) : Bool :=
  let opening := "-----BEGIN ".toList
  let name := (s.drop opening.length).takeWhile fun c => c.isUpper || c = ' '
  let rest := (s.drop opening.length).dropWhile fun c => c.isUpper || c = ' '
  opening.isPrefixOf s && "PRIVATE KEY".toList.isSuffixOf name &&
    decide ("PRIVATE KEY".length < name.length) && "-----".toList.isPrefixOf rest

/-- The URL has credentials: `:\/\/[^/@\s]+:[^/@\s]+@` after its scheme. -/
def hasCredentials (s : List Char) : Bool :=
  match afterScheme? s with
  | some rest =>
    let plain (c : Char) : Bool := !(c ∈ ['/', '@'] || isJsSpace c)
    let name := rest.takeWhile plain
    decide (':' ∈ (name.drop 1).dropLast) && (rest.dropWhile plain).head? = some '@'
  | none => false

def containsPublicSensitiveWord (s : String) : Bool :=
  containsWord (sensitiveWords ++ ["bearer".toList, "basic".toList]) true s.toList ||
    s.toList.tails.any isJwt || s.toList.tails.any isPrivateKey || hasCredentials s.toList

/-! ## Keys -/

/-- The key in lower case without dashes and underscores. -/
def plainKey (key : String) : String :=
  String.ofList ((jsToLowerCase key).toList.filter fun c => !(c ∈ ['-', '_']))

def isSensitiveKey (key : String) : Bool :=
  decide (plainKey key ∈ ["authorization", "cookie", "setcookie", "password", "token", "secret",
    "apikey", "xapikey", "accesstoken", "refreshtoken", "encryptedvalue", "ciphertext", "authtag",
    "iv", "smtppassword"])

def isPublicSensitiveKey (key : String) : Bool :=
  decide (plainKey key ∈ ["authorization", "cookie", "set-cookie", "accesstoken", "refreshtoken",
    "apikey", "xapikey", "secret", "secretvalue", "connectionsecret", "password", "smtppassword",
    "smtpcredentials", "connectionstring", "token", "tokenhash", "passwordhash", "ipaddress",
    "iphash", "encryptedvalue", "ciphertext", "authtag", "iv", "encryptionkey", "stack",
    "stacktrace", "cause", "requestbody", "responsebody", "providerresponse", "providerrequest"])

/-! ## The two applications -/

/-- What the worker redacts. -/
def persistedRedaction : Redaction where
  sensitiveText := containsSensitiveWord
  sensitiveKey := isSensitiveKey
  redacted_plain := by decide

/-- What the API redacts. -/
def publicRedaction : Redaction where
  sensitiveText := containsPublicSensitiveWord
  sensitiveKey := isPublicSensitiveKey
  redacted_plain := by decide +kernel

/-- What the worker stores of a step's payload; the limit is a setting. -/
def sanitizePersisted (lib : LogLib) (maxBytes : ℕ) : Json → Json :=
  sanitize persistedRedaction lib maxBytes

/-- What the API stores and shows of a payload. -/
def sanitizePublic (lib : LogLib) (maxBytes : ℕ) : Json → Json :=
  sanitize publicRedaction lib maxBytes

example : containsSensitiveWord "reset-password" = true ∧ containsSensitiveWord "tokenize" = false := by
  decide

/-! ## What is hidden -/

mutual

/-- The value without what is stored under sensitive keys.  Two values that have this in common
differ only there. -/
def hide (sensitive : String → Bool) : Json → Json
  | .arr items => .arr (hideItems sensitive items)
  | .obj fields => .obj (hideFields sensitive fields)
  | v => v

def hideItems (sensitive : String → Bool) : List Json → List Json
  | [] => []
  | item :: items => hide sensitive item :: hideItems sensitive items

def hideFields (sensitive : String → Bool) : List (String × Json) → List (String × Json)
  | [] => []
  | (key, entry) :: fields =>
    (key, if sensitive key then .null else hide sensitive entry) :: hideFields sensitive fields

end

lemma length_hideItems (sensitive : String → Bool) (items : List Json) :
    (hideItems sensitive items).length = items.length := by
  induction items with
  | nil => rfl
  | cons item items ih => rw [hideItems, List.length_cons, ih, List.length_cons]

mutual

/-- What is hidden has no influence on the first pass. -/
lemma redact_hide (r : Redaction) : ∀ v, redact r (hide r.sensitiveKey v) = redact r v
  | .null | .bool _ | .num _ | .str _ => rfl
  | .arr items => by rw [hide, redact, redact, redactItems_hideItems]
  | .obj fields => by rw [hide, redact, redact, redactFields_hideFields]

lemma redactItems_hideItems (r : Redaction) :
    ∀ items, redactItems r (hideItems r.sensitiveKey items) = redactItems r items
  | [] => rfl
  | item :: items => by
    rw [hideItems, redactItems, redactItems, redact_hide, redactItems_hideItems]

lemma redactFields_hideFields (r : Redaction) :
    ∀ fields, redactFields r (hideFields r.sensitiveKey fields) = redactFields r fields
  | [] => rfl
  | (key, entry) :: fields => by
    rw [hideFields, redactFields, redactFields, redactFields_hideFields]
    split_ifs with hkey
    · rfl
    · rw [redact_hide]

end

lemma sanitize_congr (r : Redaction) {v v' : Json}
    (h : hide r.sensitiveKey v = hide r.sensitiveKey v') (lib : LogLib) (maxBytes : ℕ) :
    sanitize r lib maxBytes v = sanitize r lib maxBytes v' := by
  rw [sanitize, sanitize, ← redact_hide, h, redact_hide]

end Flowmind
