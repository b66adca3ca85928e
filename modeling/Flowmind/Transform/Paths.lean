import Flowmind.Js.Fields
import Flowmind.Js.Same

/-!
# Paths of a transform step

A transform step selects parts of a record by paths such as `customer.tags.0`.  A path is read
through records and, where a segment is a number, through arrays; it is written and deleted through
records only.

* `validatePaths` — the check of a list of paths; `validatePaths_eq_nil_iff` says what it accepts.
* `readSegments`, `ownSegments` — reading a path, and reading it through records only.
* `put`, `remove` — writing and deleting.
* `ownSegments_put`, `put_comm` — what a write leaves, and when two writes commute.
* `isSome_walkBy_remove` — what is readable after a deletion.
-/

namespace Flowmind.Transform

open Json

/-! ## Checks -/

inductive TransformCode where
  | pathInvalid | dangerousKey | mergeConflict | limitExceeded
deriving DecidableEq, Repr

/-- An error of a step; the message is the one without its code. -/
structure TransformStepError where
  code : TransformCode
  message : String
deriving DecidableEq, Repr

structure TransformValidationIssue where
  code : String
  message : String
  path : String
deriving DecidableEq, Repr

def dangerousKeys : List String := ["__proto__", "prototype", "constructor"]

def isDangerousTransformKey (key : String) : Bool := decide (key ∈ dangerousKeys)

/-- `path.split(".")`. -/
def segments (path : String) : List String := (path.toList.splitOn '.').map String.ofList

variable (segment : String)

/-- `/^[0-9]+$/`. -/
def isIndex : Bool := segment ≠ "" && segment.toList.all Char.isDigit

/-- `/^[A-Za-z_][A-Za-z0-9_-]*$/`. -/
def isName : Bool :=
  match segment.toList with
  | [] => false
  | c :: cs => (c.isAlpha || c = '_') && cs.all fun c => c.isAlphanum || c = '_' || c = '-'

def isSafeTransformPath (path : String) : Bool :=
  jsTrim path ≠ "" && utf16Length path ≤ 512 && (segments path).all fun segment =>
    segment ≠ "" && !isDangerousTransformKey segment && (isName segment || isIndex segment)

def maxPaths : ℕ := 100

/-- The issues of the paths from one on; the paths before it are `seen`. -/
def pathIssues (index : ℕ) (seen : List String) : List Json → List TransformValidationIssue
  | [] => []
  | entry :: entries =>
    let place := "$.paths." ++ toString index
    match Json.asString? (some entry) with
    | some path =>
      if isSafeTransformPath path then
        (if path ∈ seen then [⟨"duplicate_path", "Paths must be unique.", place⟩] else []) ++
          pathIssues (index + 1) (setAdd seen path) entries
      else ⟨"invalid_path", "Path is invalid or unsafe.", place⟩ ::
        pathIssues (index + 1) seen entries
    | none => ⟨"invalid_path", "Path is invalid or unsafe.", place⟩ ::
        pathIssues (index + 1) seen entries

def validatePaths (value : Option Json) : List TransformValidationIssue :=
  match Json.asArray? value with
  | none | some [] =>
    [⟨"invalid_paths", "Paths must contain at least one path.", "$.paths"⟩]
  | some entries =>
    (if maxPaths < entries.length then
      [⟨"config_limit_exceeded", "At most 100 paths are allowed.", "$.paths"⟩] else []) ++
      pathIssues 0 [] entries

/-- A list of paths as a configuration holds it. -/
def pathList (paths : List String) : Option Json := some (.arr (paths.map Json.str))

lemma pathIssues_eq_nil_iff {index : ℕ} {seen paths : List String} :
    pathIssues index seen (paths.map Json.str) = [] ↔
      (∀ path ∈ paths, isSafeTransformPath path = true ∧ path ∉ seen) ∧ paths.Nodup := by
  induction paths generalizing index seen with
  | nil => simp [pathIssues]
  | cons path paths ih =>
    by_cases hsafe : isSafeTransformPath path = true
    · by_cases hseen : path ∈ seen
      · simp [pathIssues, Json.asString?, hsafe, hseen]
      · simp only [List.map_cons, pathIssues, Json.asString?, hsafe, hseen, if_true, if_false,
          List.nil_append, ih, mem_setAdd, List.forall_mem_cons, List.nodup_cons,
          not_false_eq_true, true_and, not_or]
        constructor
        · rintro ⟨hall, hnodup⟩
          exact ⟨fun q hq => ⟨(hall q hq).1, (hall q hq).2.1⟩,
            fun hmem => (hall path hmem).2.2 rfl, hnodup⟩
        · rintro ⟨hall, hnew, hnodup⟩
          exact ⟨fun q hq => ⟨(hall q hq).1, (hall q hq).2, fun heq => hnew (heq ▸ hq)⟩, hnodup⟩
    · simp [pathIssues, Json.asString?, hsafe]

variable {paths : List String}

/-- **The lists of paths that are accepted.** -/
lemma validatePaths_eq_nil_iff :
    validatePaths (pathList paths) = [] ↔ paths ≠ [] ∧ paths.length ≤ maxPaths ∧
      (∀ path ∈ paths, isSafeTransformPath path = true) ∧ paths.Nodup := by
  cases paths with
  | nil => simp [validatePaths, pathList, Json.asArray?]
  | cons path paths =>
    have hissues := @pathIssues_eq_nil_iff 0 [] (path :: paths)
    rw [List.map_cons] at hissues
    simp only [validatePaths, pathList, Json.asArray?, List.map_cons, List.append_eq_nil_iff,
      hissues]
    simp

def assertSafeKey (key : String) : Except TransformStepError Unit :=
  if isDangerousTransformKey key then
    .error ⟨.dangerousKey, "Key \"" ++ key ++ "\" is not allowed."⟩
  else .ok ()

mutual

/-- The value has no key that is not allowed. -/
def assertSafeJsonValue : Json → Except TransformStepError Unit
  | .arr items => assertSafeItems items
  | .obj fields => assertSafeFields fields
  | _ => .ok ()

def assertSafeItems : List Json → Except TransformStepError Unit
  | [] => .ok ()
  | item :: items => do
    assertSafeJsonValue item
    assertSafeItems items

def assertSafeFields : List (String × Json) → Except TransformStepError Unit
  | [] => .ok ()
  | (key, child) :: fields => do
    assertSafeKey key
    assertSafeJsonValue child
    assertSafeFields fields

end

/-- A copy of a value; it is made of a safe value only. -/
def cloneJson (value : Json) : Except TransformStepError Json := do
  assertSafeJsonValue value
  .ok value

/-- One more path for a list of paths. -/
def addSafePath (result : List String) (path : String) :
    Except TransformStepError (List String) :=
  if isSafeTransformPath path then .ok (setAdd result path)
  else .error ⟨.pathInvalid, "Transform path is invalid or unsafe."⟩

def uniqueSafePaths (paths : List String) : Except TransformStepError (List String) :=
  paths.foldlM addSafePath []

lemma foldlM_addSafePath :
    ∀ {result : List String}, (∀ path ∈ paths, isSafeTransformPath path = true) → paths.Nodup →
      (∀ path ∈ paths, path ∉ result) → paths.foldlM addSafePath result = .ok (result ++ paths) := by
  induction paths with
  | nil => simp [pure, Except.pure]
  | cons path paths ih =>
    intro result hsafe hnodup hnew
    have hadd : addSafePath result path = .ok (result ++ [path]) := by
      simp [addSafePath, hsafe path, setAdd, hnew path]
    have hrest : ∀ q ∈ paths, q ∉ result ++ [path] := by
      intro q hq
      have hne : q ≠ path := fun heq => (List.nodup_cons.mp hnodup).1 (heq ▸ hq)
      simp [hnew q (by simp [hq]), hne]
    rw [List.foldlM_cons, hadd]
    simpa [bind, Except.bind] using
      ih (fun q hq => hsafe q (by simp [hq])) (List.nodup_cons.mp hnodup).2 hrest

/-- Paths that are valid are taken as they are. -/
lemma uniqueSafePaths_of_valid (h : validatePaths (pathList paths) = []) :
    uniqueSafePaths paths = .ok paths := by
  obtain ⟨-, -, hsafe, hnodup⟩ := validatePaths_eq_nil_iff.mp h
  exact foldlM_addSafePath hsafe hnodup (by simp)

/-! ## Reading -/

/-- `Number(segment)` of a text of digits. -/
def indexOf : ℕ :=
  segment.toList.foldl (fun n c => 10 * n + (c.toNat - '0'.toNat)) 0

/-- What a segment leads to. -/
def follow : Json → String → Option Json
  | .arr items, segment => if isIndex segment then items[indexOf segment]? else none
  | .obj fields, segment => fields.lookup segment
  | _, _ => none

/-- Follow the segments of a path one after the other. -/
def walkBy (step : Json → String → Option Json) : Json → List String → Option Json
  | v, [] => some v
  | v, segment :: rest => (step v segment).bind (walkBy step · rest)

def readSegments : Json → List String → Option Json := walkBy follow

def readPath (source : Json) (path : String) : Option Json := readSegments source (segments path)

/-- What a path leads to through records only. -/
def ownSegments : Json → List String → Option Json := walkBy Json.get?

/-- A way to follow a segment: a record is left by one of its properties. -/
structure Follows (step : Json → String → Option Json) : Prop where
  record : ∀ fields segment, step (.obj fields) segment = fields.lookup segment
  same : ∀ a b segment, Same a b → Option.Rel Same (step a segment) (step b segment)

lemma follows_get? : Follows Json.get? := ⟨fun _ _ => rfl, fun _ _ segment h => h.get? segment⟩

lemma follows_follow : Follows follow := by
  refine ⟨fun _ _ => rfl, fun a b segment h => ?_⟩
  obtain ⟨hshape, hparts⟩ := same_iff.mp h
  cases a <;> cases b <;> simp [shape] at hshape
  case arr.arr items items' =>
    simp only [follow]
    split
    · exact hparts (.item (indexOf segment))
    · exact .none
  case obj.obj fields fields' => exact hparts (.field segment)
  all_goals exact .none

variable {step : Json → String → Option Json} {v w : Json} {p r : List String}

section Walk

variable {a b : Json}

lemma walkBy_append (v : Json) (p r : List String) :
    walkBy step v (p ++ r) = (walkBy step v p).bind (walkBy step · r) := by
  induction p generalizing v with
  | nil => rfl
  | cons segment p ih => simp [walkBy, Option.bind_assoc, ih]

lemma readSegments_append (v : Json) (p r : List String) :
    readSegments v (p ++ r) = (readSegments v p).bind (readSegments · r) := walkBy_append v p r

/-- The start of a path that can be followed can be followed. -/
lemma isSome_walkBy_of_append (h : (walkBy step v (p ++ r)).isSome) : (walkBy step v p).isSome := by
  rw [walkBy_append] at h
  cases hp : walkBy step v p with
  | none => simp [hp] at h
  | some _ => rfl

lemma rel_bind {x y : Option Json} {f : Json → Option Json} (h : Option.Rel Same x y)
    (hf : ∀ a b, Same a b → Option.Rel Same (f a) (f b)) :
    Option.Rel Same (x.bind f) (y.bind f) := by
  cases h with
  | none => exact .none
  | some hsame => exact hf _ _ hsame

/-- Values that are the same are read alike. -/
lemma rel_walkBy (hstep : Follows step) (h : Same a b) (p : List String) :
    Option.Rel Same (walkBy step a p) (walkBy step b p) := by
  induction p generalizing a b with
  | nil => exact .some h
  | cons segment p ih => exact rel_bind (hstep.same a b segment h) fun _ _ hsame => ih hsame

/-- What is reached through records only is what is read. -/
lemma readSegments_of_own (h : ownSegments v p = some w) : readSegments v p = some w := by
  induction p generalizing v with
  | nil => exact h
  | cons segment p ih =>
    obtain ⟨inner, hinner, hrest⟩ := Option.bind_eq_some_iff.mp h
    cases v with
    | obj fields =>
      have hfollow : follow (.obj fields) segment = some inner := hinner
      have hread : readSegments (.obj fields) (segment :: p) = readSegments inner p := by
        simp [readSegments, walkBy, hfollow]
      rw [hread, ih hrest]
    | _ => simp [Json.get?] at hinner

end Walk

/-! ## Records -/

/-- The properties of a record; of anything else, none. -/
def fieldsOf : Option Json → List (String × Json)
  | some (.obj fields) => fields
  | _ => []

variable (old : Option Json)

lemma lookup_fieldsOf (segment : String) :
    (fieldsOf old).lookup segment = old.bind (·.get? segment) := by
  rcases old with _ | v
  · rfl
  · cases v <;> rfl

lemma rel_lookup_fieldsOf {x y : Option Json} (h : Option.Rel Same x y) (segment : String) :
    Option.Rel Same ((fieldsOf x).lookup segment) ((fieldsOf y).lookup segment) := by
  rw [lookup_fieldsOf, lookup_fieldsOf]
  exact rel_bind h fun _ _ hsame => hsame.get? segment

/-! ## Writing -/

/-- Write a value below another; what is not a record on the way is replaced by one. -/
def put (value : Json) : List String → Option Json → Json
  | [], _ => value
  | segment :: rest, old =>
    .obj (setField segment (put value rest ((fieldsOf old).lookup segment)) (fieldsOf old))

/-- `setPath(target, path, value)`; the segments of a safe path are allowed as keys. -/
def setPath (target : Json) (path : String) (value : Json) : Json :=
  put value (segments path) (some target)

variable {q : List String}

@[simp] lemma fieldsOf_put :
    fieldsOf (some (put v (segment :: p) old)) =
      setField segment (put v p ((fieldsOf old).lookup segment)) (fieldsOf old) := rfl

/-- What is written is read. -/
lemma walkBy_put_append (hstep : Follows step) (old : Option Json) :
    walkBy step (put v p old) (p ++ r) = walkBy step v r := by
  induction p generalizing old with
  | nil => rfl
  | cons segment p ih => simp [put, walkBy, hstep.record, ih]

/-- A write above another one makes it as if that had not been. -/
lemma put_put_append : put v p (some (put w (p ++ r) old)) = put v p old := by
  induction p generalizing old with
  | nil => rfl
  | cons segment p ih =>
    simp only [List.cons_append, put, fieldsOf, lookup_setField_self, setField_setField, ih]

/-- A write below another one is a write into its value. -/
lemma put_append_put : put w (p ++ r) (some (put v p old)) = put (put w r (some v)) p old := by
  induction p generalizing old with
  | nil => rfl
  | cons segment p ih =>
    simp only [List.cons_append, put, fieldsOf, lookup_setField_self, setField_setField, ih]

/-- Writing what is there changes nothing. -/
lemma put_own (h : ownSegments v r = some w) : put w r (some v) = v := by
  induction r generalizing v with
  | nil => exact (Option.some.inj h).symm
  | cons segment r ih =>
    obtain ⟨inner, hinner, hrest⟩ := Option.bind_eq_some_iff.mp h
    cases v with
    | obj fields =>
      have hlookup : fields.lookup segment = some inner := hinner
      simp [put, fieldsOf, hlookup, ih hrest, setField_lookup]
    | _ => simp [Json.get?] at hinner

/-- Neither path begins with the other. -/
def Apart (p q : List String) : Prop := ¬ p <+: q ∧ ¬ q <+: p

lemma apart_cons {s t : String} : Apart (s :: p) (t :: q) ↔ s ≠ t ∨ Apart p q := by
  by_cases h : s = t
  · simp [Apart, h]
  · simp [Apart, h, Ne.symm h]

/-- A write leaves what is apart from it and reached through records. -/
lemma ownSegments_put (h : Apart q p) (old : Option Json) :
    ownSegments (put w q old) p = old.bind (ownSegments · p) := by
  induction q generalizing p old with
  | nil => exact absurd List.nil_prefix h.1
  | cons t q ih =>
    cases p with
    | nil => exact absurd List.nil_prefix h.2
    | cons s p =>
      simp only [ownSegments] at ih ⊢
      by_cases hst : s = t
      · subst hst
        have hrest := (apart_cons.mp h).resolve_left (by simp)
        simp [put, walkBy, Json.get?, ih hrest, lookup_fieldsOf, Option.bind_assoc]
      · simp [put, walkBy, Json.get?, lookup_setField, hst, lookup_fieldsOf, Option.bind_assoc]

/-- What is read apart from a write was there before. -/
lemma isSome_of_readSegments_put (h : Apart q p) {old : Option Json}
    (hread : (readSegments (put w q old) p).isSome) :
    ∃ v, old = some v ∧ (readSegments v p).isSome := by
  induction q generalizing p old with
  | nil => exact absurd List.nil_prefix h.1
  | cons t q ih =>
    cases p with
    | nil => exact absurd List.nil_prefix h.2
    | cons s p =>
      have hold : ∃ inner, (fieldsOf old).lookup s = some inner ∧
          (readSegments inner p).isSome := by
        by_cases hst : s = t
        · subst hst
          refine ih ((apart_cons.mp h).resolve_left (by simp)) ?_
          simpa [readSegments, put, walkBy, follow] using hread
        · simp only [readSegments, put, walkBy, follow, lookup_setField, hst] at hread
          obtain ⟨result, hresult⟩ := Option.isSome_iff_exists.mp hread
          obtain ⟨inner, hinner, hrest⟩ := Option.bind_eq_some_iff.mp hresult
          exact ⟨inner, hinner, by simp [readSegments, hrest]⟩
      obtain ⟨inner, hinner, hrest⟩ := hold
      match old, hinner with
      | some (.obj fields), hinner =>
        have hfollow : follow (.obj fields) s = some inner := hinner
        exact ⟨_, rfl, by simpa [readSegments, walkBy, hfollow] using hrest⟩

/-- Writes into values that are the same. -/
lemma put_congr {x y : Option Json} (h : Option.Rel Same x y) (p : List String) :
    Same (put v p x) (put v p y) := by
  induction p generalizing x y with
  | nil => exact .refl v
  | cons segment p ih =>
    refine same_obj_iff.mpr fun name => ?_
    by_cases hname : name = segment
    · subst hname
      simpa using Option.Rel.some (ih (rel_lookup_fieldsOf h name))
    · simpa [lookup_setField, hname] using rel_lookup_fieldsOf h name

/-- **Two writes that are apart commute.** -/
lemma put_comm (h : Apart p q) (old : Option Json) :
    Same (put v p (some (put w q old))) (put w q (some (put v p old))) := by
  induction p generalizing q old with
  | nil => exact absurd List.nil_prefix h.1
  | cons s p ih =>
    cases q with
    | nil => exact absurd List.nil_prefix h.2
    | cons t q =>
      refine same_obj_iff.mpr fun name => ?_
      simp only [fieldsOf_put, lookup_setField]
      by_cases hst : s = t
      · subst hst
        by_cases hname : name = s
        · simpa [hname] using Option.Rel.some (ih ((apart_cons.mp h).resolve_left (by simp)) _)
        · simpa [hname] using rel_same_refl _
      · by_cases hs : name = s
        · simpa [hs, hst] using Same.refl _
        · simpa [hs, Ne.symm hst] using rel_same_refl _

/-! ## Deleting -/

/-- `delete target[key]`. -/
def dropField (key : String) (fields : List (String × Json)) : List (String × Json) :=
  fields.filter fun entry => decide (entry.1 ≠ key)

lemma lookup_dropField {key name : String} {fields : List (String × Json)} :
    (dropField key fields).lookup name = if name = key then none else fields.lookup name := by
  by_cases h : name = key
  · have hnone : (dropField key fields).lookup key = none := by
      rw [List.lookup_eq_none_iff]
      intro entry hentry
      have hne : entry.1 ≠ key := of_decide_eq_true (List.mem_filter.mp hentry).2
      simpa using hne.symm
    simp [h, hnone]
  · rw [if_neg h]
    exact Json.lookup_filter_ne h fields

/-- Delete what a path leads to through records. -/
def remove : List String → Json → Json
  | [], v => v
  | [segment], .obj fields => .obj (dropField segment fields)
  | segment :: rest, .obj fields =>
    match fields.lookup segment with
    | some inner => .obj (setField segment (remove rest inner) fields)
    | none => .obj fields
  | _, v => v

/-- `deletePath(target, path)`; the segments of a safe path are allowed as keys. -/
def deletePath (target : Json) (path : String) : Json := remove (segments path) target

/-- **What can be reached after a deletion.** -/
lemma isSome_walkBy_remove (hstep : Follows step) (hq : q ≠ []) (v : Json) (p : List String) :
    (walkBy step (remove q v) p).isSome ↔
      (walkBy step v p).isSome ∧ ¬ (q <+: p ∧ (ownSegments v q).isSome) := by
  fun_induction remove q v generalizing p with
  | case1 v => exact absurd rfl hq
  | case2 segment fields =>
    cases p with
    | nil => simp [walkBy]
    | cons s p =>
      by_cases hs : s = segment
      · subst hs
        cases hlookup : fields.lookup s <;>
          simp [walkBy, hstep.record, lookup_dropField, ownSegments, Json.get?, hlookup]
      · simp [walkBy, hstep.record, lookup_dropField, hs, Ne.symm hs]
  | case3 segment rest fields hrest inner hlookup ih =>
    cases p with
    | nil => simp [walkBy]
    | cons s p =>
      by_cases hs : s = segment
      · subst hs
        simpa [walkBy, hstep.record, hlookup, ownSegments, Json.get?] using
          ih hrest p
      · simp [walkBy, hstep.record, lookup_setField, hs, Ne.symm hs]
  | case4 segment rest fields hrest hlookup =>
    simp [ownSegments, walkBy, Json.get?, hlookup]
  | case5 q v hnil hone hmany =>
    -- What is not a record has nothing to delete.
    have hnone : ownSegments v q = none := by
      cases q with
      | nil => exact absurd rfl hq
      | cons segment rest =>
        cases v with
        | obj fields => exact absurd rfl (hmany segment rest fields rfl)
        | _ => rfl
    simp [hnone]

/-- A deletion leaves what is apart from it. -/
lemma readSegments_remove (h : Apart q p) (v : Json) :
    readSegments (remove q v) p = readSegments v p := by
  simp only [readSegments]
  fun_induction remove q v generalizing p with
  | case1 v => exact absurd List.nil_prefix h.1
  | case2 segment fields =>
    cases p with
    | nil => exact absurd List.nil_prefix h.2
    | cons s p =>
      have hs : s ≠ segment := by
        rintro rfl
        exact h.1 (by simp)
      simp [walkBy, follow, lookup_dropField, hs]
  | case3 segment rest fields hrest inner hlookup ih =>
    cases p with
    | nil => exact absurd List.nil_prefix h.2
    | cons s p =>
      by_cases hs : s = segment
      · subst hs
        simp [walkBy, follow, hlookup, ih ((apart_cons.mp h).resolve_left (by simp))]
      · simp [walkBy, follow, lookup_setField, hs]
  | case4 => rfl
  | case5 => rfl

end Flowmind.Transform
