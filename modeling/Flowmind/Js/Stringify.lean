import Mathlib.Data.Rat.Encodable
import Flowmind.Js.Value

/-!
# JSON texts determine their values

`JSON.stringify` gives different texts for different values, the order of the properties of a record
included.  A text is read from its beginning: what follows it can only go on with a number where it
ends in one (`Stops`).

* `Readable` — the text of a thing can be told from whatever follows it.
* `readable_quote`, `readable_items` — strings, and what is separated by commas.
* `stringify_injective` — the result, for a number format that tells numbers apart.
-/

namespace Flowmind

/-- A character that may stand in a number. -/
def isNumberChar (c : Char) : Bool := c.isDigit || c ∈ ['-', '+', '.', 'e']

/-- The number format tells numbers apart and uses the characters of numbers only. -/
structure JsLib.Faithful (js : JsLib) : Prop where
  injective : Function.Injective js.numberToString
  ne_empty : ∀ q, (js.numberToString q).toList ≠ []
  chars : ∀ q, ∀ c ∈ (js.numberToString q).toList, isNumberChar c = true

/-- A format that counts: each number has a text of its own. -/
def JsLib.tally : JsLib where
  numberToString q := String.ofList (List.replicate (Encodable.encode q + 1) '1')
  stringToNumber _ := none
  dateParse _ := none

lemma JsLib.faithful_tally : JsLib.tally.Faithful where
  injective q q' h := by
    have hlength := congrArg (fun s : String => s.toList.length) h
    simpa [JsLib.tally] using hlength
  ne_empty q := by simp [JsLib.tally]
  chars q c hc := by
    have hone : c = '1' := by simpa [JsLib.tally] using hc
    rw [hone]
    decide

/-! ## Reading a text from its beginning -/

/-- The text is at its end or goes on with something that is not part of a number. -/
def Stops (s : List Char) : Prop := ∀ c ∈ s.head?, isNumberChar c = false

/-- The text of this thing can be told from what follows it. -/
def Readable {α : Type*} (text : α → List Char) (x : α) : Prop :=
  ∀ y s t, Stops s → Stops t → text x ++ s = text y ++ t → x = y ∧ s = t

lemma stops_cons {c : Char} (h : isNumberChar c = false) (s : List Char) : Stops (c :: s) := by
  simpa [Stops] using h

/-- A run of characters of one kind is cut off where it ends. -/
lemma takeWhile_append_stops {l s : List Char} (hl : ∀ c ∈ l, isNumberChar c = true)
    (hs : Stops s) : (l ++ s).takeWhile isNumberChar = l := by
  have hnone : s.takeWhile isNumberChar = [] := by
    cases s with
    | nil => rfl
    | cons c s => simp [show isNumberChar c = false from hs c (by simp)]
  rw [List.takeWhile_append_of_pos hl, hnone, List.append_nil]

lemma readable_number {js : JsLib} (hjs : js.Faithful) (q : ℚ) :
    Readable (fun q => (js.numberToString q).toList) q := by
  intro q' s t hs ht h
  have htext := congrArg (List.takeWhile isNumberChar) h
  rw [takeWhile_append_stops (hjs.chars q) hs, takeWhile_append_stops (hjs.chars q') ht] at htext
  refine ⟨hjs.injective (String.toList_injective htext), ?_⟩
  simpa [htext] using h

/-! ## Strings -/

/-- The value of a hexadecimal digit in lower case. -/
def hexValue (c : Char) : ℕ := if c.isDigit then c.toNat - 48 else c.toNat - 87

/-- Read one character of a string, and what follows it. -/
def readChar : List Char → Option (Char × List Char)
  | '\\' :: '"' :: s => some ('"', s)
  | '\\' :: '\\' :: s => some ('\\', s)
  | '\\' :: 'b' :: s => some ('\x08', s)
  | '\\' :: 'f' :: s => some ('\x0c', s)
  | '\\' :: 'n' :: s => some ('\n', s)
  | '\\' :: 'r' :: s => some ('\r', s)
  | '\\' :: 't' :: s => some ('\t', s)
  | '\\' :: 'u' :: _ :: _ :: a :: b :: s => some (Char.ofNat (16 * hexValue a + hexValue b), s)
  | '"' :: _ => none
  | c :: s => some (c, s)
  | [] => none

lemma hexValue_hexPair : ∀ n < 0x20,
    16 * hexValue (Nat.digitChar (n / 16)) + hexValue (Nat.digitChar (n % 16)) = n := by
  decide

lemma readChar_escapeChar (c : Char) (s : List Char) :
    readChar (escapeChar c ++ s) = some (c, s) := by
  unfold escapeChar
  split_ifs with h1 h2 h3 h4 h5 h6 h7 h8
  all_goals try subst c
  all_goals try rfl
  · simp [hexPair, readChar, hexValue_hexPair _ h8]
  · unfold readChar
    split <;> simp_all

/-- The characters of a string end at its first quote. -/
lemma eq_of_flatMap_escapeChar {cs ds s t : List Char}
    (h : cs.flatMap escapeChar ++ '"' :: s = ds.flatMap escapeChar ++ '"' :: t) :
    cs = ds ∧ s = t := by
  induction cs generalizing ds with
  | nil =>
    cases ds with
    | nil => simpa using h
    | cons d ds =>
      have hread := congrArg readChar h
      simp [readChar_escapeChar] at hread
      simp [readChar] at hread
  | cons c cs ih =>
    cases ds with
    | nil =>
      have hread := congrArg readChar h
      simp [readChar_escapeChar] at hread
      simp [readChar] at hread
    | cons d ds =>
      have hread := congrArg readChar h
      simp only [List.flatMap_cons, List.append_assoc, readChar_escapeChar, Option.some.injEq,
        Prod.mk.injEq] at hread
      obtain ⟨rfl, hrest⟩ := hread
      obtain ⟨rfl, rfl⟩ := ih hrest
      exact ⟨rfl, rfl⟩

lemma readable_quote (k : String) : Readable (fun k => (quote k).toList) k := by
  intro k' s t _ _ h
  have hinner := eq_of_flatMap_escapeChar (by simpa [quote] using h)
  exact ⟨String.toList_injective hinner.1, hinner.2⟩

/-! ## Lists -/

lemma intercalate_cons {α : Type*} (sep x : List α) (xs : List (List α)) :
    sep.intercalate (x :: xs) = x ++ xs.flatMap (sep ++ ·) := by
  induction xs generalizing x with
  | nil => simp
  | cons y xs ih => simp [ih]

section Items

variable {α : Type*} {text : α → List Char} {close : Char}

/-- The rest of a list, up to its closing bracket. -/
lemma readable_rest (hclose : isNumberChar close = false) (hcomma : close ≠ ',') {xs : List α}
    (hxs : ∀ x ∈ xs, Readable text x) {ys : List α} {s t : List Char}
    (h : xs.flatMap (fun x => ',' :: text x) ++ close :: s =
      ys.flatMap (fun y => ',' :: text y) ++ close :: t) : xs = ys ∧ s = t := by
  have hstops : ∀ (l : List α) (s : List Char),
      Stops (l.flatMap (fun x => ',' :: text x) ++ close :: s) := by
    intro l s
    cases l with
    | nil => exact stops_cons hclose s
    | cons y l => exact stops_cons (by decide) _
  induction xs generalizing ys with
  | nil =>
    cases ys with
    | nil => simpa using h
    | cons y ys => simp [hcomma] at h
  | cons x xs ih =>
    cases ys with
    | nil => simp [hcomma.symm] at h
    | cons y ys =>
      simp only [List.flatMap_cons, List.cons_append, List.cons.injEq, true_and,
        List.append_assoc] at h
      obtain ⟨rfl, hrest⟩ := hxs x (by simp) y _ _ (hstops xs s) (hstops ys t) h
      obtain ⟨rfl, rfl⟩ := ih (fun z hz => hxs z (by simp [hz])) hrest
      exact ⟨rfl, rfl⟩

/-- What is separated by commas, up to a closing bracket. -/
lemma readable_items (hclose : isNumberChar close = false) (hcomma : close ≠ ',')
    (hhead : ∀ x, (text x).head? ≠ some close ∧ text x ≠ []) {xs : List α}
    (hxs : ∀ x ∈ xs, Readable text x) {ys : List α} {s t : List Char}
    (h : [','].intercalate (xs.map text) ++ close :: s =
      [','].intercalate (ys.map text) ++ close :: t) : xs = ys ∧ s = t := by
  have hnot : ∀ (x : α) (l m : List Char), text x ++ l ≠ close :: m := by
    intro x l m heq
    cases htext : text x with
    | nil => exact (hhead x).2 htext
    | cons c cs =>
      have hc : c = close := by simpa [htext] using congrArg List.head? heq
      exact (hhead x).1 (by simp [htext, hc])
  cases xs with
  | nil =>
    cases ys with
    | nil => simpa using h
    | cons y ys =>
      rw [List.map_cons, intercalate_cons] at h
      exact absurd h.symm (by simpa using hnot y _ s)
  | cons x xs =>
    cases ys with
    | nil =>
      rw [List.map_cons, intercalate_cons] at h
      exact absurd h (by simpa using hnot x _ t)
    | cons y ys =>
      -- With a comma before the first item it is a rest.
      refine readable_rest hclose hcomma hxs ?_
      simpa [intercalate_cons, List.flatMap_map] using h

end Items

/-! ## Values -/

namespace Json

variable {js : JsLib}

/-- The characters of a value. -/
def chars (js : JsLib) (v : Json) : List Char := (stringify js v).toList

/-- The characters of a property. -/
def fieldChars (js : JsLib) (entry : String × Json) : List Char :=
  (quote entry.1).toList ++ ':' :: chars js entry.2

lemma stringifyItems_eq (items : List Json) : stringifyItems js items = items.map (stringify js) := by
  induction items with
  | nil => rfl
  | cons item items ih => rw [stringifyItems, ih, List.map_cons]

lemma map_stringifyFields (fields : List (String × Json)) :
    (stringifyFields js fields).map String.toList = fields.map (fieldChars js) := by
  induction fields with
  | nil => rfl
  | cons entry fields ih => simp [stringifyFields, fieldChars, chars, ih]

lemma chars_arr (items : List Json) :
    chars js (.arr items) = '[' :: ([','].intercalate (items.map (chars js)) ++ [']']) := by
  have hchars : chars js = String.toList ∘ stringify js := rfl
  simp [hchars, stringify, stringifyItems_eq]

lemma chars_obj (fields : List (String × Json)) :
    chars js (.obj fields) = '\x7b' :: ([','].intercalate (fields.map (fieldChars js)) ++ ['\x7d']) := by
  simp [chars, stringify, map_stringifyFields]

/-- A value whose text begins with this character. -/
def Opens : Json → Char → Prop
  | .null, c => c = 'n'
  | .bool true, c => c = 't'
  | .bool false, c => c = 'f'
  | .num _, c => isNumberChar c = true
  | .str _, c => c = '"'
  | .arr _, c => c = '['
  | .obj _, c => c = '\x7b'

lemma exists_chars_cons (hjs : js.Faithful) (v : Json) :
    ∃ c rest, chars js v = c :: rest ∧ v.Opens c := by
  cases v with
  | null => exact ⟨'n', ['u', 'l', 'l'], by simp [chars, stringify], rfl⟩
  | bool b =>
    cases b with
    | true => exact ⟨'t', ['r', 'u', 'e'], by simp [chars, stringify], rfl⟩
    | false => exact ⟨'f', ['a', 'l', 's', 'e'], by simp [chars, stringify], rfl⟩
  | num q =>
    obtain ⟨c, rest, hq⟩ := List.exists_cons_of_ne_nil (hjs.ne_empty q)
    exact ⟨c, rest, hq, hjs.chars q c (by simp [hq])⟩
  | str s => exact ⟨'"', _, by simp [chars, stringify, quote]; rfl, rfl⟩
  | arr items => exact ⟨_, _, chars_arr items, rfl⟩
  | obj fields => exact ⟨_, _, chars_obj fields, rfl⟩

/-- A value does not begin with a closing bracket. -/
lemma head_chars (hjs : js.Faithful) (v : Json) : (chars js v).head? ≠ some ']' ∧ chars js v ≠ [] := by
  obtain ⟨c, rest, hchars, hopens⟩ := exists_chars_cons hjs v
  rw [hchars]
  refine ⟨fun heq => ?_, by simp⟩
  obtain rfl : c = ']' := by simpa using heq
  cases v with
  | bool b => cases b <;> simp [Opens] at hopens
  | _ => simp [Opens, isNumberChar] at hopens

lemma head_fieldChars (entry : String × Json) :
    (fieldChars js entry).head? ≠ some '\x7d' ∧ fieldChars js entry ≠ [] := by
  simp [fieldChars, quote]

lemma readable_fieldChars {entry : String × Json} (h : Readable (chars js) entry.2) :
    Readable (fieldChars js) entry := by
  intro entry' s t hs ht heq
  have hcolon : ∀ l, Stops (':' :: l) := fun l => stops_cons (by decide) l
  simp only [fieldChars, List.append_assoc] at heq
  obtain ⟨hkey, hrest⟩ := readable_quote entry.1 entry'.1 _ _ (hcolon _) (hcolon _) heq
  obtain ⟨hvalue, rfl⟩ := h entry'.2 s t hs ht (List.cons.inj hrest).2
  exact ⟨Prod.ext hkey hvalue, rfl⟩

/-- Both values are of one kind; two truth values are equal. -/
def SameKind : Json → Json → Prop
  | .null, .null => True
  | .bool b, .bool b' => b = b'
  | .num _, .num _ => True
  | .str _, .str _ => True
  | .arr _, .arr _ => True
  | .obj _, .obj _ => True
  | _, _ => False

lemma sameKind_of_opens {v w : Json} {c : Char} (hv : v.Opens c) (hw : w.Opens c) :
    SameKind v w := by
  cases v with
  | bool b =>
    cases w with
    | bool b' => cases b <;> cases b' <;> simp_all [Opens, SameKind]
    | _ => cases b <;> simp_all [Opens, isNumberChar]
  | _ =>
    cases w with
    | bool b' => cases b' <;> simp_all [Opens, isNumberChar]
    | _ => simp_all [Opens, SameKind, isNumberChar]

lemma sameKind_of_chars (hjs : js.Faithful) {v w : Json} {s t : List Char}
    (h : chars js v ++ s = chars js w ++ t) : SameKind v w := by
  obtain ⟨c, rest, hv, hopens⟩ := exists_chars_cons hjs v
  obtain ⟨d, rest', hw, hopens'⟩ := exists_chars_cons hjs w
  rw [hv, hw] at h
  exact sameKind_of_opens hopens ((List.cons.inj h).1 ▸ hopens')

/-- The text of a value can be told from what follows it. -/
theorem readable_chars (hjs : js.Faithful) (v : Json) : Readable (chars js) v := by
  induction v using Json.induct with
  | null =>
    intro w s t _ _ h
    cases w with
    | null => simpa using h
    | _ => exact (sameKind_of_chars hjs h).elim
  | bool b =>
    intro w s t _ _ h
    cases w with
    | bool b' =>
      obtain rfl : b = b' := sameKind_of_chars hjs h
      simpa using h
    | _ => exact (sameKind_of_chars hjs h).elim
  | num q =>
    intro w s t hs ht h
    cases w with
    | num q' =>
      obtain ⟨rfl, rfl⟩ := readable_number hjs q q' s t hs ht (by simpa [chars, stringify] using h)
      exact ⟨rfl, rfl⟩
    | _ => exact (sameKind_of_chars hjs h).elim
  | str k =>
    intro w s t hs ht h
    cases w with
    | str k' =>
      obtain ⟨rfl, rfl⟩ := readable_quote k k' s t hs ht (by simpa [chars, stringify] using h)
      exact ⟨rfl, rfl⟩
    | _ => exact (sameKind_of_chars hjs h).elim
  | arr items ih =>
    intro w s t _ _ h
    cases w with
    | arr items' =>
      simp only [chars_arr, List.cons_append, List.cons.injEq, true_and, List.append_assoc] at h
      obtain ⟨rfl, rfl⟩ := readable_items (by decide) (by decide) (head_chars hjs) ih h
      exact ⟨rfl, rfl⟩
    | _ => exact (sameKind_of_chars hjs h).elim
  | obj fields ih =>
    intro w s t _ _ h
    cases w with
    | obj fields' =>
      simp only [chars_obj, List.cons_append, List.cons.injEq, true_and, List.append_assoc] at h
      obtain ⟨rfl, rfl⟩ := readable_items (by decide) (by decide) head_fieldChars
        (fun entry hentry => readable_fieldChars (ih entry hentry)) h
      exact ⟨rfl, rfl⟩
    | _ => exact (sameKind_of_chars hjs h).elim

/-- **Different values have different texts.** -/
theorem stringify_injective (hjs : js.Faithful) : Function.Injective (stringify js) := by
  intro v w h
  have hchars : chars js v ++ [] = chars js w ++ [] := by rw [chars, chars, h]
  exact (readable_chars hjs v w [] [] (by simp [Stops]) (by simp [Stops]) hchars).1

end Json

end Flowmind
