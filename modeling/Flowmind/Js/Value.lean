import Mathlib.Algebra.GroupWithZero.Nat
import Mathlib.Data.List.Infix
import Mathlib.Data.Rat.Defs
import Mathlib.Tactic.Common

/-!
# JavaScript values

The data that workflow definitions, step configurations and step outputs are made of, with the few
operations of the language that the program applies to them: property access, `String(x)`,
`Number(x)`, `===`, truthiness and the string helpers.

* A property that is absent and a property that is `undefined` are both `none`.
* Numbers are rational; the results of `Number(x)` that are not finite (`NaN`, `±Infinity`) are
  `none`, since no caller tells them apart.
* What the language leaves to its number and date formats is a parameter, `JsLib`.
* `===` between two objects or two arrays compares references, which a value does not determine: the
  answer is an argument of `strictEq`.
-/

namespace Flowmind

/-- A JSON value. -/
inductive Json where
  | null
  | bool (b : Bool)
  | num (q : ℚ)
  | str (s : String)
  | arr (items : List Json)
  | obj (fields : List (String × Json))
deriving Inhabited

/-- The number and date formats of the language. -/
structure JsLib where
  /-- `String(q)` of a finite number. -/
  numberToString : ℚ → String
  /-- `Number(s)` of a string, when it is finite. -/
  stringToNumber : String → Option ℚ
  /-- `Date.parse(s)`, when it is finite. -/
  dateParse : String → Option ℤ

/-- The formats for integers only, enough to evaluate definitions that hold no other number. -/
def JsLib.integers : JsLib where
  numberToString q := toString q.num
  stringToNumber s := s.toInt?.map fun n => (n : ℚ)
  dateParse _ := none

namespace Json

/-- Induction over a JSON value, with one hypothesis per item and per property. -/
@[elab_as_elim]
theorem induct {motive : Json → Prop} (null : motive .null) (bool : ∀ b, motive (.bool b))
    (num : ∀ q, motive (.num q)) (str : ∀ s, motive (.str s))
    (arr : ∀ items : List Json, (∀ item ∈ items, motive item) → motive (.arr items))
    (obj : ∀ fields : List (String × Json), (∀ entry ∈ fields, motive entry.2) →
      motive (.obj fields)) (v : Json) : motive v := by
  refine @Json.rec motive (fun items => ∀ item ∈ items, motive item)
    (fun fields => ∀ entry ∈ fields, motive entry.2) (fun entry => motive entry.2)
    null bool num str arr obj ?_ ?_ ?_ ?_ ?_ v
  · simp
  · intro head tail hhead htail
    simpa using ⟨hhead, htail⟩
  · simp
  · intro head tail hhead htail item hitem
    rcases List.mem_cons.mp hitem with rfl | hmem
    · exact hhead
    · exact htail item hmem
  · exact fun _ _ h => h

/-- Property access on a record; anything that is not a record has none of the properties read. -/
def get? : Json → String → Option Json
  | .obj fields, name => fields.lookup name
  | _, _ => none

/-- The record with one property replaced, or removed where the value is `undefined`. -/
def withField (config : Json) (name : String) (value : Option Json) : Json :=
  match config with
  | .obj fields =>
    .obj ((value.map fun v => (name, v)).toList ++
      fields.filter fun entry => decide (entry.1 ≠ name))
  | other => other

/-- `asRecord(value)[name]`, for a value that may be `undefined`. -/
def field (value : Option Json) (name : String) : Option Json := value.bind (·.get? name)

/-- The string itself, where `typeof value === "string"`. -/
def asString? : Option Json → Option String
  | some (.str s) => some s
  | _ => none

/-- The items, where `Array.isArray(value)`. -/
def asArray? : Option Json → Option (List Json)
  | some (.arr items) => some items
  | _ => none

/-- `value ?? fallback`. -/
def orElse (value : Option Json) (fallback : Json) : Json :=
  match value with
  | none => fallback
  | some .null => fallback
  | some v => v

mutual

/-- `String(value)`. -/
def toJsString (js : JsLib) : Json → String
  | .null => "null"
  | .bool b => if b then "true" else "false"
  | .num q => js.numberToString q
  | .str s => s
  | .arr items => ",".intercalate (itemStrings js items)
  | .obj _ => "[object Object]"

/-- The items of an array as `Array.prototype.join` renders them. -/
def itemStrings (js : JsLib) : List Json → List String
  | [] => []
  | .null :: items => "" :: itemStrings js items
  | item :: items => toJsString js item :: itemStrings js items

end

/-- `String(value)`, for a value that may be `undefined`. -/
def stringOf (js : JsLib) : Option Json → String
  | none => "undefined"
  | some v => v.toJsString js

/-- `String(value ?? "")`. -/
def stringOrEmpty (js : JsLib) (value : Option Json) : String :=
  (orElse value (.str "")).toJsString js

/-- `Number(value)`, when it is finite. -/
def toNumber (js : JsLib) : Json → Option ℚ
  | .null => some 0
  | .bool b => some (if b then 1 else 0)
  | .num q => some q
  | v => js.stringToNumber (v.toJsString js)

/-- Truthiness. -/
def truthy : Option Json → Bool
  | none => false
  | some .null => false
  | some (.bool b) => b
  | some (.num q) => decide (q ≠ 0)
  | some (.str s) => decide (s ≠ "")
  | some _ => true

/-- `left === right`; `sameRef` is the answer for two objects or two arrays. -/
def strictEq (sameRef : Bool) : Option Json → Option Json → Bool
  | none, none => true
  | some .null, some .null => true
  | some (.bool a), some (.bool b) => decide (a = b)
  | some (.num a), some (.num b) => decide (a = b)
  | some (.str a), some (.str b) => decide (a = b)
  | some (.arr _), some (.arr _) => sameRef
  | some (.obj _), some (.obj _) => sameRef
  | _, _ => false

variable {value : Option Json}

lemma asString?_eq_some_iff {s : String} : asString? value = some s ↔ value = some (.str s) := by
  unfold asString?
  split <;> simp_all

lemma asArray?_eq_some_iff {items : List Json} :
    asArray? value = some items ↔ value = some (.arr items) := by
  unfold asArray?
  split <;> simp_all

variable {name : String}

lemma get?_withField_self {fields : List (String × Json)} :
    (Json.withField (.obj fields) name value).get? name = value := by
  cases value with
  | some v => simp [withField, get?]
  | none =>
    simp only [withField, get?]
    rw [List.lookup_eq_none_iff]
    intro entry hentry
    exact bne_iff_ne.mpr (of_decide_eq_true (List.mem_filter.mp hentry).2).symm

lemma lookup_filter_ne {other : String} (hne : other ≠ name) :
    ∀ fields : List (String × Json),
      (fields.filter fun entry => decide (entry.1 ≠ name)).lookup other = fields.lookup other
  | [] => rfl
  | (key, v) :: fields => by
    by_cases hkey : key = name
    · have hother : (other == key) = false := by simpa [hkey] using hne
      rw [List.filter_cons_of_neg (by simpa using hkey), lookup_filter_ne hne fields,
        List.lookup_cons, hother]
    · rw [List.filter_cons_of_pos (by simpa using hkey), List.lookup_cons, List.lookup_cons,
        lookup_filter_ne hne fields]

lemma get?_withField_of_ne {fields : List (String × Json)} {other : String} (hne : other ≠ name) :
    (Json.withField (.obj fields) name value).get? other = (Json.obj fields).get? other := by
  have hbeq : (other == name) = false := by simpa using hne
  cases value with
  | some v =>
    simp only [withField, get?, Option.map_some, Option.toList_some, List.cons_append,
      List.lookup_cons, hbeq]
    exact lookup_filter_ne hne fields
  | none => exact lookup_filter_ne hne fields

lemma orElse_of_ne_null {v : Json} (h : v ≠ .null) (fallback : Json) :
    orElse (some v) fallback = v := by
  cases v with
  | null => exact absurd rfl h
  | _ => rfl

lemma strictEq_num_iff {q : ℚ} :
    strictEq false value (some (.num q)) = true ↔ value = some (.num q) := by
  rcases value with _ | v
  · simp [strictEq]
  · cases v <;> simp [strictEq]

/-- Every value equals itself. -/
lemma strictEq_self (value : Option Json) : strictEq true value value = true := by
  rcases value with _ | v
  · rfl
  · cases v <;> simp [strictEq]

/-- Nothing equals a fresh array. -/
lemma strictEq_fresh (value : Option Json) : strictEq false value (some (.arr [])) = false := by
  rcases value with _ | v
  · rfl
  · cases v <;> rfl

/-- Values that are equal without being the same reference compare alike. -/
lemma strictEq_congr {a b : Option Json} (h : strictEq false a b = true) (r r' : Bool)
    (c : Option Json) : strictEq r a c = strictEq r' b c := by
  rcases a with _ | a
  · rcases b with _ | b
    · rcases c with _ | c <;> rfl
    · cases b <;> exact absurd h (by simp [strictEq])
  · rcases b with _ | b
    · cases a <;> exact absurd h (by simp [strictEq])
    · cases a <;> cases b <;> simp [strictEq] at h <;> subst_vars <;>
        rcases c with _ | c <;> try rfl
      all_goals cases c <;> rfl

end Json

/-! ## Strings -/

/-- The white space that `String.prototype.trim` removes. -/
def isJsSpace (c : Char) : Bool :=
  c ∈ ['\t', '\n', '\x0b', '\x0c', '\r', ' ', '\u00a0', '\u1680', '\u2028', '\u2029', '\u202f',
    '\u205f', '\u3000', '\ufeff'] || ('\u2000' ≤ c && c ≤ '\u200a')

/-- `s.trim()`. -/
def jsTrim (s : String) : String :=
  String.ofList ((s.toList.dropWhile isJsSpace).reverse.dropWhile isJsSpace).reverse

/-- `s.includes(t)`. -/
def jsIncludes (s t : String) : Bool := decide (t.toList <:+: s.toList)

/-- `s.toLowerCase()`, on the characters that become letters of the names compared with: the capital
letters, and the sign for Kelvin. -/
def jsToLowerCase (s : String) : String :=
  String.ofList (s.toList.map fun c => if c.toNat = 0x212a then 'k' else c.toLower)

/-- The code units of a character. -/
def utf16Width (c : Char) : ℕ := if c.toNat < 0x10000 then 1 else 2

/-- `s.length`, in code units. -/
def utf16Length (s : String) : ℕ := (s.toList.map utf16Width).sum

/-- The longest start of a text that has at most `limit` code units. -/
def utf16Take : ℕ → List Char → List Char
  | _, [] => []
  | limit, c :: cs =>
    if utf16Width c ≤ limit then c :: utf16Take (limit - utf16Width c) cs else []

/-- `s.slice(0, limit)`; half of a character is dropped. -/
def utf16Slice (s : String) (limit : ℕ) : String := String.ofList (utf16Take limit s.toList)

/-- The trimmed string, unless there is none or it is blank. -/
def stringValue (value : Option Json) : Option String :=
  match Json.asString? value with
  | some s => if jsTrim s = "" then none else some (jsTrim s)
  | none => none

/-- A value that is accepted is a string, and not an empty one. -/
lemma exists_str_of_stringValue {value : Option Json} {trimmed : String}
    (h : stringValue value = some trimmed) : ∃ s, value = some (.str s) ∧ s ≠ "" := by
  unfold stringValue at h
  split at h
  · rename_i s hs
    split at h
    · exact absurd h (by simp)
    · rename_i hne
      refine ⟨s, Json.asString?_eq_some_iff.mp hs, ?_⟩
      rintro rfl
      exact hne (by decide)
  · exact absurd h (by simp)

/-! ## Serialisation -/

/-- The four hexadecimal digits of a code unit below 256. -/
def hexPair (n : ℕ) : List Char := ['0', '0', Nat.digitChar (n / 16), Nat.digitChar (n % 16)]

/-- A character in a JSON text. -/
def escapeChar (c : Char) : List Char :=
  if c = '"' then ['\\', '"']
  else if c = '\\' then ['\\', '\\']
  else if c = '\x08' then ['\\', 'b']
  else if c = '\x0c' then ['\\', 'f']
  else if c = '\n' then ['\\', 'n']
  else if c = '\r' then ['\\', 'r']
  else if c = '\t' then ['\\', 't']
  else if c.toNat < 0x20 then ['\\', 'u'] ++ hexPair c.toNat
  else [c]

/-- A text with quotes. -/
def quote (s : String) : String := String.ofList (['"'] ++ s.toList.flatMap escapeChar ++ ['"'])

namespace Json

mutual

/-- `JSON.stringify(value)`. -/
def stringify (js : JsLib) : Json → String
  | .null => "null"
  | .bool b => if b then "true" else "false"
  | .num q => js.numberToString q
  | .str s => quote s
  | .arr items => "[" ++ ",".intercalate (stringifyItems js items) ++ "]"
  | .obj fields => "\x7b" ++ ",".intercalate (stringifyFields js fields) ++ "\x7d"

def stringifyItems (js : JsLib) : List Json → List String
  | [] => []
  | item :: items => stringify js item :: stringifyItems js items

def stringifyFields (js : JsLib) : List (String × Json) → List String
  | [] => []
  | (key, entry) :: fields => (quote key ++ ":" ++ stringify js entry) :: stringifyFields js fields

end

/-- `Buffer.byteLength(JSON.stringify(value))`. -/
def byteLength (js : JsLib) (v : Json) : ℕ := (stringify js v).utf8ByteSize

end Json

/-- What succeeds went through its first part. -/
lemma exists_of_bind_eq_ok {ε α β : Type} {first : Except ε α} {rest : α → Except ε β} {result : β}
    (h : first >>= rest = .ok result) : ∃ value, first = .ok value ∧ rest value = .ok result := by
  cases first with
  | error message => cases h
  | ok value => exact ⟨value, rfl, h⟩

lemma exists_of_map_eq_ok {ε α β : Type} {first : Except ε α} {f : α → β} {result : β}
    (h : first.map f = .ok result) : ∃ value, first = .ok value ∧ f value = result := by
  cases first with
  | error message => cases h
  | ok value => exact ⟨value, rfl, Except.ok.inj h⟩

/-! ## Sets

A `Set` is the list of its elements in the order in which they were added. -/

/-- `set.add(key)`. -/
def setAdd {α : Type*} [DecidableEq α] (set : List α) (key : α) : List α :=
  if key ∈ set then set else set ++ [key]

@[simp] lemma mem_setAdd {α : Type*} [DecidableEq α] {set : List α} {key x : α} :
    x ∈ setAdd set key ↔ x ∈ set ∨ x = key := by
  unfold setAdd
  split
  · rename_i h
    exact ⟨Or.inl, fun hx => hx.elim id fun heq => heq ▸ h⟩
  · simp

end Flowmind
