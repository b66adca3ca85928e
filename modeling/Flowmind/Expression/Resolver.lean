import Flowmind.Expression.Parser

/-!
# Resolving a configuration

`resolveValue` replaces the templates in a configuration by what their paths lead to in the
execution context.  A text that is one expression becomes the value itself, whatever its type; in a
longer text the values are written out.  A path that leads nowhere is an error in strict mode and
nothing in legacy mode.

* `resolveValue` — the resolver; `lookup_resolveFields` — what becomes of a field.
* `resolveValue_plain` — a value without delimiters resolves to itself.
-/

namespace Flowmind

open Expression

inductive ExpressionMode where
  | legacy | strict
deriving DecidableEq, Repr

/-! ## The resolver -/

/-- What a path leads to. -/
def readPath : List String → Json → Option Json
  | [], current => some current
  | segment :: segments, .arr items =>
    if isArrayIndex segment then
      match items[digitsValue segment.toList]? with
      | some item => readPath segments item
      | none => none
    else none
  | segment :: segments, .obj fields =>
    match fields.lookup segment with
    | some entry => readPath segments entry
    | none => none
  | _ :: _, _ => none

def stringifyInterpolated (js : JsLib) : Json → String
  | .str s => s
  | .num q => js.numberToString q
  | .bool b => if b then "true" else "false"
  | v => v.stringify js

/-- The error for a path that leads nowhere. -/
def pathNotFound {α : Type} (path : ExpressionPath) : Except ExpressionError α :=
  .error { code := .pathNotFound
           message := "Expression path \"" ++ path.raw ++ "\" was not found", expression := path.raw }

section Resolve

variable (js : JsLib) (mode : ExpressionMode) (scope : Json)

/-- What a part of a longer text contributes. -/
def interpolatePart : TemplatePart → Except ExpressionError String
  | .text value => .ok value
  | .expression path =>
    match readPath path.segments scope, mode with
    | none, .legacy | some .null, .legacy => .ok ""
    | none, .strict | some .null, .strict => pathNotFound path
    | some v, _ => .ok (stringifyInterpolated js v)

def interpolate : List TemplatePart → Except ExpressionError String
  | [] => .ok ""
  | part :: parts =>
    match interpolatePart js mode scope part with
    | .error e => .error e
    | .ok written =>
      match interpolate parts with
      | .error e => .error e
      | .ok rest => .ok (written ++ rest)

def resolveTemplate (parsed : ParsedTemplate) : Except ExpressionError Json :=
  if parsed.isSingleExpression then
    match parsed.parts with
    | .expression path :: _ =>
      match readPath path.segments scope, mode with
      | some v, _ => .ok v
      | none, .legacy => .ok (.str "")
      | none, .strict => pathNotFound path
    | _ => .ok (.str parsed.source)
  else
    match interpolate js mode scope parsed.parts with
    | .error e => .error e
    | .ok output => .ok (.str output)

/-- No caller of the resolver sets limits. -/
def resolveString (s : String) : Except ExpressionError Json :=
  match parseTemplate {} s with
  | .error e => .error e
  | .ok parsed =>
    if parsed.expressionCount = 0 then .ok (.str s) else resolveTemplate js mode scope parsed

mutual

def resolveValue : Json → Except ExpressionError Json
  | .null => .ok .null
  | .bool b => .ok (.bool b)
  | .num q => .ok (.num q)
  | .str s => resolveString js mode scope s
  | .arr items =>
    match resolveItems items with
    | .error e => .error e
    | .ok resolved => .ok (.arr resolved)
  | .obj fields =>
    match resolveFields fields with
    | .error e => .error e
    | .ok resolved => .ok (.obj resolved)

def resolveItems : List Json → Except ExpressionError (List Json)
  | [] => .ok []
  | item :: items =>
    match resolveValue item with
    | .error e => .error e
    | .ok resolved =>
      match resolveItems items with
      | .error e => .error e
      | .ok rest => .ok (resolved :: rest)

def resolveFields : List (String × Json) → Except ExpressionError (List (String × Json))
  | [] => .ok []
  | (key, entry) :: fields =>
    match resolveValue entry with
    | .error e => .error e
    | .ok resolved =>
      match resolveFields fields with
      | .error e => .error e
      | .ok rest => .ok ((key, resolved) :: rest)

end

end Resolve

section Steps

variable {js : JsLib} {mode : ExpressionMode} {scope : Json}

lemma interpolate_cons (part : TemplatePart) (parts : List TemplatePart) :
    interpolate js mode scope (part :: parts) =
      (interpolatePart js mode scope part).bind fun written =>
        (interpolate js mode scope parts).map (written ++ ·) := by
  rw [interpolate]
  cases interpolatePart js mode scope part with
  | error e => rfl
  | ok written => cases interpolate js mode scope parts <;> rfl

lemma resolveItems_cons (item : Json) (items : List Json) :
    resolveItems js mode scope (item :: items) =
      (resolveValue js mode scope item).bind fun resolved =>
        (resolveItems js mode scope items).map (resolved :: ·) := by
  rw [resolveItems]
  cases resolveValue js mode scope item with
  | error e => rfl
  | ok resolved => cases resolveItems js mode scope items <;> rfl

lemma resolveFields_cons (key : String) (entry : Json) (fields : List (String × Json)) :
    resolveFields js mode scope ((key, entry) :: fields) =
      (resolveValue js mode scope entry).bind fun resolved =>
        (resolveFields js mode scope fields).map ((key, resolved) :: ·) := by
  rw [resolveFields]
  cases resolveValue js mode scope entry with
  | error e => rfl
  | ok resolved => cases resolveFields js mode scope fields <;> rfl

lemma resolveValue_arr (items : List Json) :
    resolveValue js mode scope (.arr items) = (resolveItems js mode scope items).map .arr := by
  rw [resolveValue]
  cases resolveItems js mode scope items <;> rfl

lemma resolveValue_obj (fields : List (String × Json)) :
    resolveValue js mode scope (.obj fields) = (resolveFields js mode scope fields).map .obj := by
  rw [resolveValue]
  cases resolveFields js mode scope fields <;> rfl

/-- The fields of what an object is resolved to are those of the object, resolved. -/
lemma lookup_resolveFields {fields resolved : List (String × Json)}
    (h : resolveFields js mode scope fields = .ok resolved) (name : String) :
    resolved.lookup name =
      (fields.lookup name).bind fun v => (resolveValue js mode scope v).toOption := by
  induction fields generalizing resolved with
  | nil =>
    cases h
    rfl
  | cons entry fields ih =>
    obtain ⟨key, value⟩ := entry
    rw [resolveFields_cons] at h
    obtain ⟨v, hvalue, h⟩ := exists_of_bind_eq_ok h
    obtain ⟨rest, hrest, rfl⟩ := exists_of_map_eq_ok h
    rw [List.lookup_cons, List.lookup_cons]
    cases name == key with
    | true => simp [hvalue, Except.toOption]
    | false => exact ih hrest

end Steps

/-! ## The texts of a value -/

mutual

def texts : Json → List String
  | .str value => [value]
  | .arr items => textsOfItems items
  | .obj fields => textsOfFields fields
  | _ => []

def textsOfItems : List Json → List String
  | [] => []
  | item :: items => texts item ++ textsOfItems items

def textsOfFields : List (String × Json) → List String
  | [] => []
  | (_, entry) :: fields => texts entry ++ textsOfFields fields

end

section Plain

variable {js : JsLib} {mode : ExpressionMode} {scope : Json}

lemma resolveString_plain {s : String} (h : Plain s) :
    resolveString js mode scope s = .ok (.str s) := by
  obtain ⟨hparsed, hcount⟩ := @parseTemplate_plain {} _ h
  simp [resolveString, hparsed, hcount]

mutual

/-- **A value without delimiters resolves to itself.** -/
theorem resolveValue_plain : ∀ {v : Json}, (∀ s ∈ texts v, Plain s) →
    resolveValue js mode scope v = .ok v
  | .null, _ | .bool _, _ | .num _, _ => rfl
  | .str s, h => resolveString_plain (h s (List.mem_singleton_self s))
  | .arr items, h => by
    rw [resolveValue_arr, resolveItems_plain h]
    rfl
  | .obj fields, h => by
    rw [resolveValue_obj, resolveFields_plain h]
    rfl

lemma resolveItems_plain : ∀ {items : List Json}, (∀ s ∈ textsOfItems items, Plain s) →
    resolveItems js mode scope items = .ok items
  | [], _ => rfl
  | item :: items, h => by
    rw [textsOfItems, List.forall_mem_append] at h
    rw [resolveItems_cons, resolveValue_plain h.1, resolveItems_plain h.2]
    rfl

lemma resolveFields_plain : ∀ {fields : List (String × Json)},
    (∀ s ∈ textsOfFields fields, Plain s) → resolveFields js mode scope fields = .ok fields
  | [], _ => rfl
  | (key, value) :: fields, h => by
    rw [textsOfFields, List.forall_mem_append] at h
    rw [resolveFields_cons, resolveValue_plain h.1, resolveFields_plain h.2]
    rfl

end

end Plain

end Flowmind
