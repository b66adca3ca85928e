import Flowmind.DataStores.Values
import Flowmind.Sanitize.Redaction

/-!
# Values that share parts

One object may be a part of a value at several places, as when two templates are resolved to the
same object of the context.  The checks and the passes look for cycles by remembering the objects
that they have met, and never forget one; to them, the second place of a shared object is a cycle.

* `Ref` — a value whose objects and arrays have an identity, and `Ref.tree`, its JSON.
* `checks_visit` — the checks accept a value that is within the limits and shares nothing.
* `result_scrub_iff` — a pass is not disturbed where nothing that is shown was met before.
* `sharing_invisible_iff` — the values for which sharing makes no difference.
-/

namespace Flowmind

/-- A JSON value whose objects and arrays have an identity: the same number is the same object. -/
inductive Ref where
  | null
  | bool (b : Bool)
  | num (q : ℚ)
  | str (s : String)
  | arr (id : ℕ) (items : List Ref)
  | obj (id : ℕ) (fields : List (String × Ref))

namespace Ref

mutual

/-- The value as JSON. -/
def tree : Ref → Json
  | .null => .null
  | .bool b => .bool b
  | .num q => .num q
  | .str s => .str s
  | .arr _ items => .arr (treeItems items)
  | .obj _ fields => .obj (treeFields fields)

def treeItems : List Ref → List Json
  | [] => []
  | item :: items => item.tree :: treeItems items

def treeFields : List (String × Ref) → List (String × Json)
  | [] => []
  | (key, entry) :: fields => (key, entry.tree) :: treeFields fields

end

mutual

/-- The objects and arrays of a value, place by place. -/
def ids : Ref → List ℕ
  | .arr id items => id :: idsItems items
  | .obj id fields => id :: idsFields fields
  | _ => []

def idsItems : List Ref → List ℕ
  | [] => []
  | item :: items => item.ids ++ idsItems items

def idsFields : List (String × Ref) → List ℕ
  | [] => []
  | (_, entry) :: fields => entry.ids ++ idsFields fields

end

/-- A deep copy: the same JSON, and every place has an object of its own. -/
structure IsCopy (copy v : Ref) : Prop where
  tree : copy.tree = v.tree
  fresh : copy.ids.Nodup

lemma length_treeItems (items : List Ref) : (treeItems items).length = items.length := by
  induction items with
  | nil => rfl
  | cons item items ih => simp [treeItems, ih]

/-! ## The checks

`assertSafeJson` of data stores and `assertSafeWorkflowVariableJson` differ in their names for
things and in the keys that they refuse. -/

inductive RefusalCode where
  | limitExceeded | valueNotJson | dangerousKey
deriving DecidableEq, Repr

structure Refusal where
  code : RefusalCode
  message : String
deriving DecidableEq, Repr

structure Rules where
  label : String
  keyLabel : String
  maxBytes : ℕ
  maxDepth : ℕ
  maxStringLength : ℕ
  maxArrayItems : ℕ
  maxOperations : ℕ
  refused : List String

/-- How many parts have been looked at, and the objects and arrays among them. -/
structure Progress where
  operations : ℕ
  seen : List ℕ

/-- The checks of one part. -/
def enter (rules : Rules) (depth : ℕ) (entry : Ref) (state : Progress) : Except Refusal Progress :=
  if rules.maxOperations < state.operations + 1 then
    .error ⟨.limitExceeded, rules.label ++ " is too complex."⟩
  else if rules.maxDepth < depth then
    .error ⟨.limitExceeded, rules.label ++ " exceeds maximum JSON depth."⟩
  else
    match entry with
    | .null | .bool _ | .num _ => .ok ⟨state.operations + 1, state.seen⟩
    | .str s =>
      if rules.maxStringLength < utf16Length s then
        .error ⟨.limitExceeded, rules.label ++ " string exceeds maximum length."⟩
      else .ok ⟨state.operations + 1, state.seen⟩
    | .arr id items =>
      if id ∈ state.seen then
        .error ⟨.valueNotJson, rules.label ++ " cannot contain circular references."⟩
      else if rules.maxArrayItems < items.length then
        .error ⟨.limitExceeded, rules.label ++ " array has too many items."⟩
      else .ok ⟨state.operations + 1, id :: state.seen⟩
    | .obj id _ =>
      if id ∈ state.seen then
        .error ⟨.valueNotJson, rules.label ++ " cannot contain circular references."⟩
      else .ok ⟨state.operations + 1, id :: state.seen⟩

mutual

def visit (rules : Rules) (depth : ℕ) : Ref → Progress → Except Refusal Progress
  | .arr id items, state =>
    (enter rules depth (.arr id items) state).bind (visitItems rules (depth + 1) items)
  | .obj id fields, state =>
    (enter rules depth (.obj id fields) state).bind (visitFields rules (depth + 1) fields)
  | entry, state => enter rules depth entry state

def visitItems (rules : Rules) (depth : ℕ) : List Ref → Progress → Except Refusal Progress
  | [], state => .ok state
  | item :: items, state => (visit rules depth item state).bind (visitItems rules depth items)

def visitFields (rules : Rules) (depth : ℕ) :
    List (String × Ref) → Progress → Except Refusal Progress
  | [], state => .ok state
  | (key, entry) :: fields, state =>
    if key ∈ rules.refused then
      .error ⟨.dangerousKey, rules.keyLabel ++ " \"" ++ key ++ "\" is not allowed."⟩
    else (visit rules depth entry state).bind (visitFields rules depth fields)

end

/-- The value is returned as a copy. -/
def assertSafeJson (js : JsLib) (rules : Rules) (value : Ref) : Except Refusal Json :=
  (visit rules 0 value ⟨0, []⟩).bind fun _ =>
    if rules.maxBytes < utf16Length (value.tree.stringify js) then
      .error ⟨.limitExceeded, rules.label ++ " exceeds maximum size."⟩
    else .ok value.tree

def dataStoreRules : Rules where
  label := "Data Store value"
  keyLabel := "Data Store key"
  maxBytes := DataStores.maxValueBytes
  maxDepth := DataStores.maxDepth
  maxStringLength := DataStores.maxStringLength
  maxArrayItems := DataStores.maxArrayItems
  maxOperations := DataStores.maxOperations
  refused := DataStores.dangerousKeys

/-- `WORKFLOW_VARIABLE_LIMITS`, with the dangerous keys and the reserved names. -/
def variableRules (label : String) : Rules where
  label := label
  keyLabel := "Variable key"
  maxBytes := 64000
  maxDepth := 12
  maxStringLength := 32000
  maxArrayItems := 1000
  maxOperations := 10000
  refused := ["__proto__", "prototype", "constructor", "trigger", "workflow", "execution",
    "variables", "steps", "system", "timestamp", "item", "index", "metadata", "organization",
    "connection", "environment", "__runtime"]

def assertDataStoreValue (js : JsLib) (value : Ref) : Except Refusal Json :=
  assertSafeJson js dataStoreRules value

def assertVariableValue (js : JsLib) (value : Ref) (label : String) : Except Refusal Json :=
  assertSafeJson js (variableRules label) value

/-! ### What the checks accept -/

/-- What is checked: a value at its depth, or a key. -/
inductive Part where
  | value (depth : ℕ) (v : Json)
  | key (name : String)

/-- Keys are not counted. -/
def Part.cost : Part → ℕ
  | value .. => 1
  | key _ => 0

mutual

/-- The parts of a value in the order in which they are checked. -/
def parts (depth : ℕ) : Json → List Part
  | .arr items => .value depth (.arr items) :: partsItems (depth + 1) items
  | .obj fields => .value depth (.obj fields) :: partsFields (depth + 1) fields
  | v => [.value depth v]

def partsItems (depth : ℕ) : List Json → List Part
  | [] => []
  | item :: items => parts depth item ++ partsItems depth items

def partsFields (depth : ℕ) : List (String × Json) → List Part
  | [] => []
  | (key, entry) :: fields => .key key :: (parts depth entry ++ partsFields depth fields)

end

/-- The limits for one part. -/
def Rules.Admits (rules : Rules) : Part → Prop
  | .value depth (.str s) => depth ≤ rules.maxDepth ∧ utf16Length s ≤ rules.maxStringLength
  | .value depth (.arr items) => depth ≤ rules.maxDepth ∧ items.length ≤ rules.maxArrayItems
  | .value depth _ => depth ≤ rules.maxDepth
  | .key name => name ∉ rules.refused

/-- The parts of a value, their number and the length of its text are within the limits. -/
structure Rules.Accepts (rules : Rules) (js : JsLib) (v : Json) : Prop where
  parts : ∀ part ∈ Ref.parts 0 v, rules.Admits part
  operations : ((Ref.parts 0 v).map Part.cost).sum ≤ rules.maxOperations
  size : utf16Length (v.stringify js) ≤ rules.maxBytes

/-- What is remembered after these parts, with these objects and arrays. -/
def Progress.after (state : Progress) (parts : List Part) (ids : List ℕ) : Progress :=
  ⟨state.operations + (parts.map Part.cost).sum, ids.reverse ++ state.seen⟩

/-- The checks have not stopped. -/
@[mk_iff]
structure Rules.Going (rules : Rules) (state : Progress) : Prop where
  operations : state.operations ≤ rules.maxOperations
  seen : state.seen.Nodup

/-- The checks get through these parts. -/
def Rules.Fits (rules : Rules) (parts : List Part) (ids : List ℕ) (state : Progress) : Prop :=
  (∀ part ∈ parts, rules.Admits part) ∧ rules.Going (state.after parts ids)

section Visit

variable {rules : Rules} {state state' : Progress} {parts₁ parts₂ : List Part} {ids₁ ids₂ : List ℕ}

lemma after_append :
    state.after (parts₁ ++ parts₂) (ids₁ ++ ids₂) =
      (state.after parts₁ ids₁).after parts₂ ids₂ := by
  simp [Progress.after, add_assoc]

lemma Rules.Going.of_after (h : rules.Going (state.after parts₁ ids₁)) : rules.Going state :=
  ⟨(Nat.le_add_right _ _).trans h.operations, (List.nodup_append.mp h.seen).2.1⟩

lemma fits_append : rules.Fits (parts₁ ++ parts₂) (ids₁ ++ ids₂) state ↔
    rules.Fits parts₁ ids₁ state ∧ rules.Fits parts₂ ids₂ (state.after parts₁ ids₁) := by
  simp only [Rules.Fits, after_append, List.mem_append, or_imp, forall_and]
  constructor
  · rintro ⟨⟨h₁, h₂⟩, hgoing⟩
    exact ⟨⟨h₁, hgoing.of_after⟩, h₂, hgoing⟩
  · rintro ⟨⟨h₁, -⟩, h₂, hgoing⟩
    exact ⟨⟨h₁, h₂⟩, hgoing⟩

/-- A program of the checks gets through these parts, or fails. -/
def Checks (rules : Rules) (parts : List Part) (ids : List ℕ)
    (program : Progress → Except Refusal Progress) : Prop :=
  ∀ state state', rules.Going state →
    (program state = .ok state' ↔ rules.Fits parts ids state ∧ state' = state.after parts ids)

lemma Checks.nil : Checks rules [] [] .ok := by
  intro state state' hgoing
  have hafter : state.after [] [] = state := by simp [Progress.after]
  simp [Rules.Fits, hafter, hgoing, eq_comm]

lemma Checks.bind {first second : Progress → Except Refusal Progress}
    (hfirst : Checks rules parts₁ ids₁ first) (hsecond : Checks rules parts₂ ids₂ second) :
    Checks rules (parts₁ ++ parts₂) (ids₁ ++ ids₂) fun state => (first state).bind second := by
  intro state state' hgoing
  rw [fits_append, after_append]
  change (first state).bind second = _ ↔ _
  constructor
  · intro h
    cases hmid : first state with
    | error => simp [hmid, Except.bind] at h
    | ok mid =>
      obtain ⟨hfits, rfl⟩ := (hfirst state mid hgoing).mp hmid
      rw [hmid] at h
      obtain ⟨hfits', heq⟩ := (hsecond _ _ hfits.2).mp h
      exact ⟨⟨hfits, hfits'⟩, heq⟩
  · rintro ⟨⟨hfits, hfits'⟩, heq⟩
    rw [(hfirst _ _ hgoing).mpr ⟨hfits, rfl⟩]
    exact (hsecond _ _ hfits.2).mpr ⟨hfits', heq⟩

lemma Checks.key {key : String} {refusal : Refusal} {program : Progress → Except Refusal Progress}
    (h : Checks rules parts₁ ids₁ program) :
    Checks rules (.key key :: parts₁) ids₁ fun state =>
      if key ∈ rules.refused then .error refusal else program state := by
  intro state state' hgoing
  have hafter : state.after (.key key :: parts₁) ids₁ = state.after parts₁ ids₁ := by
    simp [Progress.after, Part.cost]
  have hfits : rules.Fits (.key key :: parts₁) ids₁ state ↔
      key ∉ rules.refused ∧ rules.Fits parts₁ ids₁ state := by
    simp [Rules.Fits, hafter, Rules.Admits, and_assoc]
  rw [hafter, hfits]
  split_ifs with hkey
  · simp [hkey]
  · simpa [hkey] using h state state' hgoing

/-- The object or array itself. -/
def own : Ref → List ℕ
  | .arr id _ | .obj id _ => [id]
  | _ => []

lemma checks_enter (depth : ℕ) (v : Ref) :
    Checks rules [.value depth v.tree] v.own (enter rules depth v) := by
  intro state state' hgoing
  have hafter : ∀ part ids, part.cost = 1 →
      state.after [part] ids = ⟨state.operations + 1, ids.reverse ++ state.seen⟩ := by
    intro part ids hcost
    simp [Progress.after, hcost]
  rw [Rules.Fits, hafter _ _ rfl, Rules.going_iff, List.forall_mem_singleton]
  have hseen := hgoing.seen
  unfold enter
  split_ifs with hops hdepth
  · exact iff_of_false nofun fun h => hops.not_ge h.1.2.1
  · refine iff_of_false nofun fun h => hdepth.not_ge ?_
    cases v <;> first | exact h.1.1 | exact h.1.1.1
  · cases v <;> simp [tree, Rules.Admits, own, length_treeItems]
    all_goals grind

mutual

/-- **The checks accept a value that is within the limits and shares nothing.** -/
theorem checks_visit (depth : ℕ) :
    ∀ v : Ref, Checks rules (parts depth v.tree) v.ids (visit rules depth v)
  | .null => checks_enter depth .null
  | .bool b => checks_enter depth (.bool b)
  | .num q => checks_enter depth (.num q)
  | .str s => checks_enter depth (.str s)
  | .arr id items => (checks_enter depth (.arr id items)).bind (checks_visitItems (depth + 1) items)
  | .obj id fields =>
    (checks_enter depth (.obj id fields)).bind (checks_visitFields (depth + 1) fields)

theorem checks_visitItems (depth : ℕ) : ∀ items : List Ref,
    Checks rules (partsItems depth (treeItems items)) (idsItems items)
      (visitItems rules depth items)
  | [] => Checks.nil
  | item :: items => (checks_visit depth item).bind (checks_visitItems depth items)

theorem checks_visitFields (depth : ℕ) : ∀ fields : List (String × Ref),
    Checks rules (partsFields depth (treeFields fields)) (idsFields fields)
      (visitFields rules depth fields)
  | [] => Checks.nil
  | (_, entry) :: fields => ((checks_visit depth entry).bind (checks_visitFields depth fields)).key

end

/-- A value is accepted when it is within the limits and no object stands at two places. -/
lemma isOk_assertSafeJson_iff {js : JsLib} {v : Ref} :
    (assertSafeJson js rules v).isOk = true ↔ v.ids.Nodup ∧ rules.Accepts js v.tree := by
  have hchecks := fun state' => @checks_visit rules 0 v ⟨0, []⟩ state' ⟨Nat.zero_le _, .nil⟩
  have hfits : rules.Fits (parts 0 v.tree) v.ids ⟨0, []⟩ ↔ v.ids.Nodup ∧
      (∀ part ∈ parts 0 v.tree, rules.Admits part) ∧
        ((parts 0 v.tree).map Part.cost).sum ≤ rules.maxOperations := by
    simp only [Rules.Fits, Rules.going_iff, Progress.after, zero_add, List.append_nil,
      (List.reverse_perm _).nodup_iff]
    tauto
  unfold assertSafeJson
  cases hvisit : visit rules 0 v ⟨0, []⟩ with
  | error refusal =>
    have hnot : ¬rules.Fits (parts 0 v.tree) v.ids ⟨0, []⟩ := fun h => by
      simp [(hchecks _).mpr ⟨h, rfl⟩] at hvisit
    rw [hfits] at hnot
    exact iff_of_false nofun fun h => hnot ⟨h.1, h.2.parts, h.2.operations⟩
  | ok state =>
    obtain ⟨hnodup, hadmits, hcost⟩ := hfits.mp ((hchecks state).mp hvisit).1
    split_ifs with hsize
    · exact iff_of_false nofun fun h => hsize.not_ge h.2.size
    · exact iff_of_true rfl ⟨hnodup, hadmits, hcost, Nat.le_of_not_lt hsize⟩

/-- What is accepted is copied. -/
lemma assertDataStoreValue_eq {js : JsLib} {v : Ref}
    (h : (v.assertDataStoreValue js).isOk = true) : v.assertDataStoreValue js = .ok v.tree := by
  unfold assertDataStoreValue assertSafeJson at h ⊢
  cases hvisit : visit dataStoreRules 0 v ⟨0, []⟩ with
  | error => simp [hvisit, Except.bind, Except.isOk, Except.toBool] at h
  | ok =>
    simp only [hvisit, Except.bind] at h ⊢
    split_ifs at h ⊢ with hsize
    · exact absurd h Bool.false_ne_true
    · rfl

end Visit

/-! ## The passes

`redact` and `sanitizeValue` differ in what they do to a text and in the keys whose values they
replace. -/

/-- A pass, with what it makes of a value that shares nothing. -/
structure Scrubber where
  text : String → String
  hides : String → Bool
  mark : String
  plain : Json → Json
  plain_leaf : plain .null = .null ∧ (∀ b, plain (.bool b) = .bool b) ∧ ∀ q, plain (.num q) = .num q
  plain_str : ∀ s, plain (.str s) = .str (text s)
  plain_arr : ∀ items, plain (.arr items) = .arr (items.map plain)
  plain_obj : ∀ fields, plain (.obj fields) =
    .obj (fields.map fun entry => (entry.1, if hides entry.1 then .str mark else plain entry.2))

mutual

/-- The value after the pass, and the objects and arrays that have been met. -/
def scrub (c : Scrubber) : Ref → List ℕ → Json × List ℕ
  | .null, seen => (.null, seen)
  | .bool b, seen => (.bool b, seen)
  | .num q, seen => (.num q, seen)
  | .str s, seen => (.str (c.text s), seen)
  | .arr id items, seen =>
    if id ∈ seen then (.str "[Circular]", seen)
    else (.arr (scrubItems c items (id :: seen)).1, (scrubItems c items (id :: seen)).2)
  | .obj id fields, seen =>
    if id ∈ seen then (.str "[Circular]", seen)
    else (.obj (scrubFields c fields (id :: seen)).1, (scrubFields c fields (id :: seen)).2)

def scrubItems (c : Scrubber) : List Ref → List ℕ → List Json × List ℕ
  | [], seen => ([], seen)
  | item :: items, seen =>
    let scrubbed := scrub c item seen
    let rest := scrubItems c items scrubbed.2
    (scrubbed.1 :: rest.1, rest.2)

def scrubFields (c : Scrubber) : List (String × Ref) → List ℕ → List (String × Json) × List ℕ
  | [], seen => ([], seen)
  | (key, entry) :: fields, seen =>
    let scrubbed := if c.hides key then (.str c.mark, seen) else scrub c entry seen
    let rest := scrubFields c fields scrubbed.2
    ((key, scrubbed.1) :: rest.1, rest.2)

end

lemma redactFields_eq (r : Redaction) (fields : List (String × Json)) :
    redactFields r fields = fields.map fun entry =>
      (entry.1, if r.sensitiveKey entry.1 then .str "[redacted]" else redact r entry.2) := by
  induction fields with
  | nil => rfl
  | cons entry fields ih => rw [redactFields, ih, List.map_cons]

lemma sanitizeFields_eq (lib : LogLib) (fields : List (String × Json)) :
    sanitizeFields lib fields = fields.map fun entry => (entry.1,
      if isLogSensitive entry.1 then .str "[REDACTED]" else sanitizeValue lib entry.2) := by
  induction fields with
  | nil => rfl
  | cons entry fields ih => rw [sanitizeFields, ih, List.map_cons]

def redacting (r : Redaction) : Scrubber where
  text s := if r.sensitiveText s then "[redacted]" else s
  hides := r.sensitiveKey
  mark := "[redacted]"
  plain := redact r
  plain_leaf := ⟨rfl, fun _ => rfl, fun _ => rfl⟩
  plain_str _ := rfl
  plain_arr items := by rw [redact, redactItems_eq]
  plain_obj fields := by rw [redact, redactFields_eq]

def logging (lib : LogLib) : Scrubber where
  text := maybeSanitizeUrl lib
  hides := isLogSensitive
  mark := "[REDACTED]"
  plain := sanitizeValue lib
  plain_leaf := ⟨rfl, fun _ => rfl, fun _ => rfl⟩
  plain_str _ := rfl
  plain_arr items := by rw [sanitizeValue, sanitizeItems_eq]
  plain_obj fields := by rw [sanitizeValue, sanitizeFields_eq]

/-- What the worker stores of a payload.  The redacted value is a new one, which shares nothing. -/
def sanitizePersisted (lib : LogLib) (maxBytes : ℕ) (v : Ref) : Json :=
  Flowmind.sanitizeForLog lib maxBytes (limitValue 0 (scrub (redacting persistedRedaction) v []).1)

def sanitizeForLog (lib : LogLib) (maxBytes : ℕ) (v : Ref) : Json :=
  truncateForLog lib maxBytes (scrub (logging lib) v []).1

/-! ### What is shown -/

/-- What becomes of the result of a pass: it is shown down to some depth, with some items of an
array and without the values of some keys. -/
structure Shown where
  result : ℕ → Json → Json
  reaches : ℕ → Prop
  items : ℕ → ℕ
  hides : String → Bool
  deep : ∀ {depth} v w, ¬reaches depth → result depth v = result depth w
  arr : ∀ {depth xs ys}, reaches depth → xs.length = ys.length →
    (result depth (.arr xs) = result depth (.arr ys) ↔
      (xs.take (items xs.length)).map (result (depth + 1)) =
        (ys.take (items ys.length)).map (result (depth + 1)))
  obj : ∀ {depth xs ys}, reaches depth → (result depth (.obj xs) = result depth (.obj ys) ↔
    (xs.map fun x => (x.1, if hides x.1 then .str "[REDACTED]" else result (depth + 1) x.2)) =
      ys.map fun y => (y.1, if hides y.1 then .str "[REDACTED]" else result (depth + 1) y.2))
  arr_ne : ∀ {depth xs}, reaches depth → result depth (.str "[Circular]") ≠ result depth (.arr xs)
  obj_ne : ∀ {depth xs}, reaches depth → result depth (.str "[Circular]") ≠ result depth (.obj xs)

/-- All of it. -/
def whole : Shown where
  result _ v := v
  reaches _ := True
  items n := n
  hides _ := false
  deep _ _ h := absurd trivial h
  arr _ _ := by simp
  obj _ := by simp
  arr_ne _ := by simp
  obj_ne _ := by simp

section Stored

variable (lib : LogLib) {depth : ℕ} (hdepth : depth ≤ 8)
include hdepth

lemma limited_arr (xs : List Json) : sanitizeValue lib (limitValue depth (.arr xs)) =
    if xs.length ≤ maxArrayLength then
      .arr (xs.map fun x => sanitizeValue lib (limitValue (depth + 1) x))
    else .obj [("truncated", .bool true), ("originalSize", .num xs.length),
      ("limit", .num maxArrayLength), ("preview", .arr ((xs.take maxArrayLength).map fun x =>
        sanitizeValue lib (limitValue (depth + 1) x)))] := by
  have hplain : ∀ key ∈ ["truncated", "originalSize", "limit", "preview"],
      isLogSensitive key = false := by decide
  rw [limitValue, if_neg (by omega)]
  split_ifs
  · simp [sanitizeValue]
  · simp [sanitizeValue, sanitizeFields, hplain, Function.comp_def]

lemma limited_obj (xs : List (String × Json)) :
    sanitizeValue lib (limitValue depth (.obj xs)) = .obj (xs.map fun x => (x.1,
      if isLogSensitive x.1 then .str "[REDACTED]"
      else sanitizeValue lib (limitValue (depth + 1) x.2))) := by
  rw [limitValue, if_neg (by omega), sanitizeValue]
  congr 1
  induction xs with
  | nil => rfl
  | cons x xs ih => rw [limitFields, sanitizeFields, ih, List.map_cons]

lemma limited_circular : sanitizeValue lib (limitValue depth (.str "[Circular]")) =
    .str "[Circular]" := by
  have hlength : utf16Length "[Circular]" ≤ maxTextLength := by decide
  have hurl : maybeSanitizeUrl lib "[Circular]" = "[Circular]" := if_neg (by decide)
  rw [limitValue, if_neg (by omega), limitText, if_pos hlength, sanitizeValue, hurl]

end Stored

/-- What is stored. -/
def stored (lib : LogLib) : Shown where
  result depth v := sanitizeValue lib (limitValue depth v)
  reaches depth := depth ≤ 8
  items _ := maxArrayLength
  hides := isLogSensitive
  deep {depth} v w h := by
    have hdeep : ∀ v, limitValue depth v = maxDepthNotice := fun v => by
      cases v <;> exact if_pos (Nat.lt_of_not_le h)
    rw [hdeep, hdeep]
  arr hdepth hlength := by
    rw [limited_arr lib hdepth, limited_arr lib hdepth, ← hlength]
    split_ifs with hshort
    · rw [List.take_of_length_le hshort, List.take_of_length_le (hlength ▸ hshort), Json.arr.injEq]
    · simp
  obj hdepth := by rw [limited_obj lib hdepth, limited_obj lib hdepth, Json.obj.injEq]
  arr_ne hdepth := by
    rw [limited_circular lib hdepth, limited_arr lib hdepth]
    split_ifs <;> simp
  obj_ne hdepth := by
    rw [limited_circular lib hdepth, limited_obj lib hdepth]
    simp

mutual

/-- No object or array that is shown has been met before. -/
def Clear (shown : Shown) (c : Scrubber) (depth : ℕ) : Ref → List ℕ → Prop
  | .arr id items, seen => shown.reaches depth →
      id ∉ seen ∧ ClearItems shown c (depth + 1) items (shown.items items.length) (id :: seen)
  | .obj id fields, seen => shown.reaches depth →
      id ∉ seen ∧ ClearFields shown c (depth + 1) fields (id :: seen)
  | _, _ => True

def ClearItems (shown : Shown) (c : Scrubber) (depth : ℕ) : List Ref → ℕ → List ℕ → Prop
  | item :: items, n + 1, seen =>
    Clear shown c depth item seen ∧ ClearItems shown c depth items n (scrub c item seen).2
  | _, _, _ => True

def ClearFields (shown : Shown) (c : Scrubber) (depth : ℕ) :
    List (String × Ref) → List ℕ → Prop
  | [], _ => True
  | (key, entry) :: fields, seen =>
    (c.hides key = false → shown.hides key = false → Clear shown c depth entry seen) ∧
      ClearFields shown c depth fields (if c.hides key then seen else (scrub c entry seen).2)

end

section Scrub

variable {shown : Shown} {c : Scrubber}

lemma length_scrubItems (items : List Ref) (seen : List ℕ) :
    (scrubItems c items seen).1.length = items.length := by
  induction items generalizing seen with
  | nil => rfl
  | cons item items ih => simp [scrubItems, ih]

mutual

/-- **A pass is not disturbed where nothing that is shown was met before.** -/
theorem result_scrub_iff (depth : ℕ) : ∀ (v : Ref) (seen : List ℕ),
    shown.result depth (scrub c v seen).1 = shown.result depth (c.plain v.tree) ↔
      Clear shown c depth v seen
  | .null, _ => by simp [scrub, tree, Clear, c.plain_leaf]
  | .bool _, _ => by simp [scrub, tree, Clear, c.plain_leaf]
  | .num _, _ => by simp [scrub, tree, Clear, c.plain_leaf]
  | .str _, _ => by simp [scrub, tree, Clear, c.plain_str]
  | .arr id items, seen => by
    rw [scrub, tree, c.plain_arr, Clear]
    by_cases hdepth : shown.reaches depth
    · split_ifs with hseen
      · exact iff_of_false (shown.arr_ne hdepth) fun h => (h hdepth).1 hseen
      · rw [shown.arr hdepth (by simp [length_scrubItems, length_treeItems]), length_scrubItems,
          List.length_map, length_treeItems, items_scrub_iff]
        simp [hdepth, hseen]
    · exact iff_of_true (shown.deep _ _ hdepth) fun h => absurd h hdepth
  | .obj id fields, seen => by
    rw [scrub, tree, c.plain_obj, Clear]
    by_cases hdepth : shown.reaches depth
    · split_ifs with hseen
      · exact iff_of_false (shown.obj_ne hdepth) fun h => (h hdepth).1 hseen
      · rw [shown.obj hdepth, fields_scrub_iff]
        simp [hdepth, hseen]
    · exact iff_of_true (shown.deep _ _ hdepth) fun h => absurd h hdepth

theorem items_scrub_iff (depth : ℕ) : ∀ (items : List Ref) (n : ℕ) (seen : List ℕ),
    ((scrubItems c items seen).1.take n).map (shown.result depth) =
        (((treeItems items).map c.plain).take n).map (shown.result depth) ↔
      ClearItems shown c depth items n seen
  | [], _, _ => by simp [scrubItems, treeItems, ClearItems]
  | _ :: _, 0, _ => by simp [ClearItems]
  | item :: items, n + 1, seen => by
    rw [ClearItems, ← result_scrub_iff depth item seen, ← items_scrub_iff depth items n]
    simp only [scrubItems, treeItems, List.map_cons, List.take_succ_cons, List.cons.injEq]

theorem fields_scrub_iff (depth : ℕ) : ∀ (fields : List (String × Ref)) (seen : List ℕ),
    ((scrubFields c fields seen).1.map fun x =>
        (x.1, if shown.hides x.1 then .str "[REDACTED]" else shown.result depth x.2)) =
      (((treeFields fields).map fun entry =>
        (entry.1, if c.hides entry.1 then .str c.mark else c.plain entry.2)).map fun y =>
          (y.1, if shown.hides y.1 then .str "[REDACTED]" else shown.result depth y.2)) ↔
      ClearFields shown c depth fields seen
  | [], _ => by simp [scrubFields, treeFields, ClearFields]
  | (key, entry) :: fields, seen => by
    have hentry := result_scrub_iff depth entry seen
    rw [ClearFields, ← fields_scrub_iff depth fields]
    simp only [scrubFields, treeFields, List.map_cons]
    cases hhides : c.hides key <;> cases hshown : shown.hides key <;> simp [hentry]

end

mutual

/-- A pass over a value that shares nothing, and nothing with what was met before. -/
theorem scrub_of_nodup : ∀ (v : Ref) (seen : List ℕ), v.ids.Nodup → (∀ id ∈ v.ids, id ∉ seen) →
    (scrub c v seen).1 = c.plain v.tree ∧ ∀ id ∈ (scrub c v seen).2, id ∈ v.ids ∨ id ∈ seen
  | .null, _, _, _ => by simp +contextual [scrub, tree, c.plain_leaf]
  | .bool _, _, _, _ => by simp +contextual [scrub, tree, c.plain_leaf]
  | .num _, _, _, _ => by simp +contextual [scrub, tree, c.plain_leaf]
  | .str _, _, _, _ => by simp +contextual [scrub, tree, c.plain_str]
  | .arr id items, seen, hnodup, hnew => by
    rw [ids, List.nodup_cons] at hnodup
    simp only [ids, List.mem_cons, forall_eq_or_imp] at hnew
    obtain ⟨hitems, hmet⟩ := scrubItems_of_nodup items (id :: seen) hnodup.2 (by grind)
    rw [scrub, if_neg hnew.1, tree, c.plain_arr, hitems]
    exact ⟨rfl, fun x hx => by have := hmet x hx; grind [ids]⟩
  | .obj id fields, seen, hnodup, hnew => by
    rw [ids, List.nodup_cons] at hnodup
    simp only [ids, List.mem_cons, forall_eq_or_imp] at hnew
    obtain ⟨hfields, hmet⟩ := scrubFields_of_nodup fields (id :: seen) hnodup.2 (by grind)
    rw [scrub, if_neg hnew.1, tree, c.plain_obj, hfields]
    exact ⟨rfl, fun x hx => by have := hmet x hx; grind [ids]⟩

theorem scrubItems_of_nodup : ∀ (items : List Ref) (seen : List ℕ), (idsItems items).Nodup →
    (∀ id ∈ idsItems items, id ∉ seen) →
      (scrubItems c items seen).1 = (treeItems items).map c.plain ∧
      ∀ id ∈ (scrubItems c items seen).2, id ∈ idsItems items ∨ id ∈ seen
  | [], _, _, _ => by simp +contextual [scrubItems, treeItems]
  | item :: items, seen, hnodup, hnew => by
    rw [idsItems, List.nodup_append] at hnodup
    simp only [idsItems, List.mem_append] at hnew
    obtain ⟨hitem, hmet⟩ := scrub_of_nodup item seen hnodup.1 fun id hid => hnew id (.inl hid)
    obtain ⟨hitems, hmet'⟩ :=
      scrubItems_of_nodup items (scrub c item seen).2 hnodup.2.1 (by grind)
    simp only [scrubItems, treeItems, idsItems, List.map_cons, hitem]
    grind

theorem scrubFields_of_nodup : ∀ (fields : List (String × Ref)) (seen : List ℕ),
    (idsFields fields).Nodup → (∀ id ∈ idsFields fields, id ∉ seen) →
    ((scrubFields c fields seen).1 = (treeFields fields).map fun entry =>
      (entry.1, if c.hides entry.1 then .str c.mark else c.plain entry.2)) ∧
      ∀ id ∈ (scrubFields c fields seen).2, id ∈ idsFields fields ∨ id ∈ seen
  | [], _, _, _ => by simp +contextual [scrubFields, treeFields]
  | (key, entry) :: fields, seen, hnodup, hnew => by
    rw [idsFields, List.nodup_append] at hnodup
    simp only [idsFields, List.mem_append] at hnew
    obtain ⟨hentry, hmet⟩ := scrub_of_nodup entry seen hnodup.1 fun id hid => hnew id (.inl hid)
    cases hhides : c.hides key with
    | true =>
      obtain ⟨hfields, hmet'⟩ := scrubFields_of_nodup fields seen hnodup.2.1 (by grind)
      simp only [scrubFields, treeFields, idsFields]
      grind
    | false =>
      obtain ⟨hfields, hmet'⟩ :=
        scrubFields_of_nodup fields (scrub c entry seen).2 hnodup.2.1 (by grind)
      simp only [scrubFields, treeFields, idsFields]
      grind

end

end Scrub

/-! ## A value and its deep copy -/

/-- The value is accepted, and comes out of the passes, as its copy does, whatever the limits of the
last cut are. -/
structure SameResults (lib : LogLib) (label : String) (v copy : Ref) : Prop where
  dataStore : (v.assertDataStoreValue lib.js).isOk = (copy.assertDataStoreValue lib.js).isOk
  workflowVariable :
    (v.assertVariableValue lib.js label).isOk = (copy.assertVariableValue lib.js label).isOk
  persisted : ∀ maxBytes, v.sanitizePersisted lib maxBytes = copy.sanitizePersisted lib maxBytes
  log : ∀ maxBytes, v.sanitizeForLog lib maxBytes = copy.sanitizeForLog lib maxBytes

variable {v copy : Ref} {lib : LogLib}

lemma forall_truncateForLog_eq_iff {x y : Json} :
    (∀ maxBytes, truncateForLog lib maxBytes x = truncateForLog lib maxBytes y) ↔ x = y := by
  constructor
  · intro h
    have hlarge := h (max (x.byteLength lib.js) (y.byteLength lib.js))
    rwa [truncateForLog, truncateForLog, if_pos (Nat.le_max_left _ _),
      if_pos (Nat.le_max_right _ _)] at hlarge
  · rintro rfl _
    rfl

lemma IsCopy.isOk_eq_iff (h : copy.IsCopy v) (js : JsLib) (rules : Rules) :
    (assertSafeJson js rules v).isOk = (assertSafeJson js rules copy).isOk ↔
      (rules.Accepts js v.tree → v.ids.Nodup) := by
  rw [Bool.eq_iff_iff, isOk_assertSafeJson_iff, isOk_assertSafeJson_iff, h.tree]
  have := h.fresh
  tauto

lemma IsCopy.result_eq_iff (h : copy.IsCopy v) (shown : Shown) (c : Scrubber) :
    shown.result 0 (scrub c v []).1 = shown.result 0 (scrub c copy []).1 ↔
      Clear shown c 0 v [] := by
  rw [(scrub_of_nodup copy [] h.fresh (by simp)).1, h.tree, result_scrub_iff]

/-- **Sharing makes no difference** exactly when a value of which some object stands at two places
is beyond the limits, and no second place of an object is shown. -/
theorem sharing_invisible_iff (h : copy.IsCopy v) (lib : LogLib) (label : String) :
    SameResults lib label v copy ↔
      (dataStoreRules.Accepts lib.js v.tree → v.ids.Nodup) ∧
      ((variableRules label).Accepts lib.js v.tree → v.ids.Nodup) ∧
      Clear (stored lib) (redacting persistedRedaction) 0 v [] ∧
      Clear whole (logging lib) 0 v [] := by
  rw [← h.result_eq_iff, ← h.result_eq_iff, ← @forall_truncateForLog_eq_iff lib,
    ← @forall_truncateForLog_eq_iff lib]
  constructor
  · intro hsame
    exact ⟨(h.isOk_eq_iff _ _).mp hsame.dataStore, (h.isOk_eq_iff _ _).mp hsame.workflowVariable,
      hsame.persisted, hsame.log⟩
  · rintro ⟨hdataStore, hvariable, hpersisted, hlog⟩
    exact ⟨(h.isOk_eq_iff _ _).mpr hdataStore, (h.isOk_eq_iff _ _).mpr hvariable, hpersisted, hlog⟩

/-- A record that is refused for one of its keys, with an object, or two, under sensitive keys. -/
def hiddenPair (second : ℕ) : Ref :=
  .obj 0 [("constructor", .null), ("password", .obj 1 []), ("token", .obj second [])]

theorem sharing_invisible_of_hidden : IsCopy (hiddenPair 2) (hiddenPair 1) ∧
    SameResults .plain "variable" (hiddenPair 1) (hiddenPair 2) := by
  have hcopy : IsCopy (hiddenPair 2) (hiddenPair 1) := ⟨rfl, by decide⟩
  have hkey : .key "constructor" ∈ parts 0 (hiddenPair 1).tree := by
    simp [hiddenPair, tree, treeFields, parts, partsFields]
  refine ⟨hcopy, (sharing_invisible_iff hcopy .plain "variable").mpr
    ⟨fun h => ?_, fun h => ?_, ?_, ?_⟩⟩
  · exact absurd (by decide) (h.parts _ hkey)
  · exact absurd (by decide) (h.parts _ hkey)
  · have hhides : isSensitiveKey "password" = true ∧ isSensitiveKey "token" = true := by
      decide +kernel
    simp [hiddenPair, Clear, ClearFields, redacting, persistedRedaction, hhides]
  · have hhides : isLogSensitive "password" = true ∧ isLogSensitive "token" = true := by
      decide +kernel
    simp [hiddenPair, Clear, ClearFields, logging, hhides]

/-- A record with an object at two places, or with two objects. -/
def plainPair (second : ℕ) : Ref := .obj 0 [("a", .obj 1 []), ("b", .obj second [])]

/-- An object at two places is taken for a cycle. -/
theorem shared_object_refused : IsCopy (plainPair 2) (plainPair 1) ∧
    assertDataStoreValue .integers (plainPair 1) =
      .error ⟨.valueNotJson, "Data Store value cannot contain circular references."⟩ ∧
    ¬SameResults .plain "variable" (plainPair 1) (plainPair 2) := by
  refine ⟨⟨rfl, by decide⟩, rfl, fun h => ?_⟩
  exact absurd h.dataStore (by decide +kernel)

end Ref

end Flowmind
