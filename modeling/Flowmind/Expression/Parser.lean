import Flowmind.Js.Value
import Mathlib.Algebra.Order.Ring.Rat
import Mathlib.Data.Nat.Cast.Order.Ring

/-!
# The parser of templates

A text of a step configuration may hold expressions between double braces, each a path into the
execution context.  `parseTemplate` cuts a text into its parts, and rejects it when an expression is
not a path or when a delimiter is left over.  Its callers may set limits: how many expressions a text
may have, how long an expression may be, how deep its path and how large an index; the resolver sets
none, and has the defaults.

The parser is cut into two: `scan` finds what `/\{\{([\s\S]*?)\}\}/g` matches, and `parseFound`
reads what stands inside the matches.  What a path is does not depend on the limits, nor does what
the parts of a text are; so acceptance comes apart into a condition on the text and the limits.

* `findPair` — the next delimiter; `Plain` — no delimiter in the text.
* `parsePath`, `parseTemplate` — the parser, for any limits.
* `parsePath_ok_iff`, `parseFound_ok_iff`, `parseTemplate_ok_iff` — what is accepted is a path, or a
  template, whatever the limits, and within the limits.
* `expressionCount_eq_zero_iff` — a text that is accepted has no expression exactly if it is plain.
-/

namespace Flowmind

/-! ## Errors -/

/-- The codes of the errors that parsing and resolving throw. -/
inductive ExpressionErrorCode where
  | syntaxInvalid | segmentForbidden | pathNotFound
deriving DecidableEq, Repr

structure ExpressionError where
  code : ExpressionErrorCode
  message : String
  expression : String
deriving DecidableEq, Repr

/-- A syntax error, thrown. -/
def syntaxError {α : Type} (message expression : String) : Except ExpressionError α :=
  .error { code := .syntaxInvalid, message, expression }

/-! ## Paths -/

/-- `/^[0-9]+$/`. -/
def isArrayIndex (segment : String) : Bool :=
  !segment.toList.isEmpty && segment.toList.all Char.isDigit

/-- The number that digits stand for. -/
def digitsValue (digits : List Char) : ℕ :=
  digits.foldl (fun n c => 10 * n + (c.toNat - '0'.toNat)) 0

/-- `/^[A-Za-z_][A-Za-z0-9_-]*$/`. -/
def isIdentifier (segment : String) : Bool :=
  match segment.toList with
  | [] => false
  | first :: rest =>
    (first.isAlpha || first == '_') && rest.all fun c => c.isAlphanum || c == '_' || c == '-'

/-- Segments that would reach the language's own objects. -/
def forbiddenSegments : List String := ["__proto__", "prototype", "constructor", "eval"]

/-- The characters of other languages' expressions. -/
def unsupportedChars : List Char := "()[]'\"`|+-*/%?:,".toList

/-- A path into the context; the first segment is its namespace. -/
structure ExpressionPath where
  raw : String
  segments : List String
deriving DecidableEq, Repr

/-! ## Delimiters -/

/-- What stands before and after the first pair of the character. -/
def findPair (c : Char) : List Char → Option (List Char × List Char)
  | a :: b :: rest =>
    if a = c ∧ b = c then some ([], rest)
    else (findPair c (b :: rest)).map fun (before, after) => (a :: before, after)
  | _ => none

inductive TemplatePart where
  | text (value : String)
  | expression (path : ExpressionPath)
deriving DecidableEq, Repr

/-- The text between two expressions, unless it is empty. -/
def textPart (chars : List Char) : List TemplatePart :=
  if chars = [] then [] else [.text (String.ofList chars)]

/-- No delimiter in the text. -/
def plainChars (chars : List Char) : Bool :=
  (findPair '\x7b' chars).isNone && (findPair '\x7d' chars).isNone

/-- What is left after the last expression.  The source checks once more, for a text with an opening
pair and no expression; such a text has been rejected here. -/
def parseTail (source : String) (tail : List Char) : Except ExpressionError (List TemplatePart) :=
  if plainChars tail then .ok (textPart tail) else syntaxError "Invalid expression delimiters" source

/-- The text holds no delimiter. -/
def Plain (s : String) : Prop := plainChars s.toList = true

instance (s : String) : Decidable (Plain s) := inferInstanceAs (Decidable (_ = true))

end Flowmind

namespace Flowmind.Expression

/-! ## Limits -/

/-- A limit is any number; one that is not a number is never exceeded. -/
inductive Limit where
  | unlimited
  | atMost (q : ℚ)
deriving DecidableEq, Repr

/-- `n > limit`. -/
def exceeds (n : ℕ) : Limit → Bool
  | .unlimited => false
  | .atMost q => decide (q < n)

/-- What a caller sets; the rest has a default. -/
structure ExpressionParseOptions where
  maxExpressionLength : Option Limit := none
  maxInterpolations : Option Limit := none
  maxPathDepth : Option Limit := none
  maxArrayIndex : Option Limit := none
deriving DecidableEq, Repr

namespace ExpressionParseOptions

variable (options : ExpressionParseOptions)

def expressionLength : Limit :=
  options.maxExpressionLength.getD (.atMost 512)

def interpolations : Limit :=
  options.maxInterpolations.getD (.atMost 50)

def pathDepth : Limit := options.maxPathDepth.getD (.atMost 16)

def arrayIndex : Limit :=
  options.maxArrayIndex.getD (.atMost 10000)

end ExpressionParseOptions

/-! ## Paths -/

section Parse

variable (options : ExpressionParseOptions)

def checkSegment (raw segment : String) : Except ExpressionError Unit :=
  if segment ∈ forbiddenSegments then
    .error
      { code := .segmentForbidden
        message := "Expression segment \"" ++ segment ++ "\" is not allowed"
        expression := raw }
  else if isArrayIndex segment then
    if exceeds (digitsValue segment.toList) options.arrayIndex then
      syntaxError "Array index is too large" raw
    else .ok ()
  else if isIdentifier segment then .ok ()
  else syntaxError ("Expression segment \"" ++ segment ++ "\" is invalid") raw

/-- The segments are checked from left to right; the first error is thrown. -/
def checkSegments (raw : String) : List String → Except ExpressionError Unit
  | [] => .ok ()
  | segment :: segments =>
    match checkSegment options raw segment with
    | .error e => .error e
    | .ok () => checkSegments raw segments

/-- `raw.split(".")`. -/
def segmentsOf (raw : String) : List String := (raw.toList.splitOn '.').map String.ofList

def parsePath (raw : String) : Except ExpressionError ExpressionPath :=
  if raw = "" then syntaxError "Expression cannot be empty" raw
  else if exceeds (utf16Length raw) options.expressionLength then
    syntaxError "Expression is too long" raw
  else if raw.toList.any fun c => decide (c ∈ unsupportedChars) then
    syntaxError "Expression syntax is not supported" raw
  else if "" ∈ segmentsOf raw then syntaxError "Expression path contains an empty segment" raw
  else if exceeds (segmentsOf raw).length options.pathDepth then
    syntaxError "Expression path is too deep" raw
  else
    match checkSegments options raw (segmentsOf raw) with
    | .error e => .error e
    | .ok () => .ok { raw, segments := segmentsOf raw }

/-! ## Templates -/

/-- What the regular expression finds: the text before each match and what stands between its
delimiters, and the text after the last match. -/
structure Scan where
  found : List (List Char × List Char)
  tail : List Char
deriving DecidableEq, Repr

/-- The matches, one after the other.  Each is shorter than the text, which bounds their number. -/
def scanFuel : ℕ → List Char → Scan
  | 0, chars => ⟨[], chars⟩
  | fuel + 1, chars =>
    match findPair '\x7b' chars with
    | none => ⟨[], chars⟩
    | some (gap, inside) =>
      match findPair '\x7d' inside with
      | none => ⟨[], chars⟩
      | some (inner, after) =>
        ⟨(gap, inner) :: (scanFuel fuel after).found, (scanFuel fuel after).tail⟩

def scan (chars : List Char) : Scan := scanFuel chars.length chars

/-- The parts for the matches; the texts between them are taken as they are. -/
def parseFound (expressionCount : ℕ) :
    List (List Char × List Char) → Except ExpressionError (List TemplatePart)
  | [] => .ok []
  | (gap, inner) :: found =>
    let raw := jsTrim (String.ofList inner)
    if exceeds (expressionCount + 1) options.interpolations then
      syntaxError "Too many expressions in one field" raw
    else
      match parsePath options raw with
      | .error e => .error e
      | .ok path =>
        match parseFound (expressionCount + 1) found with
        | .error e => .error e
        | .ok parts => .ok (textPart gap ++ .expression path :: parts)

structure ParsedTemplate where
  source : String
  parts : List TemplatePart
  expressionCount : ℕ
  isSingleExpression : Bool
deriving DecidableEq, Repr

/-- Nothing but one expression. -/
def isSingle : List TemplatePart → Bool
  | [.expression _] => true
  | _ => false

def parseTemplate (source : String) : Except ExpressionError ParsedTemplate :=
  match parseFound options 0 (scan source.toList).found with
  | .error e => .error e
  | .ok parts =>
    match parseTail source (scan source.toList).tail with
    | .error e => .error e
    | .ok tail => .ok
        { source, parts := parts ++ tail, expressionCount := (scan source.toList).found.length
          isSingleExpression := isSingle (parts ++ tail) }

end Parse

/-! ## The default limits -/

lemma exceeds_atMost (n m : ℕ) : exceeds n (.atMost m) = decide (m < n) := by
  simp only [exceeds, Nat.cast_lt]

@[simp] lemma exceeds_expressionLength_default (n : ℕ) :
    exceeds n (ExpressionParseOptions.expressionLength {}) = decide (512 < n) :=
  exceeds_atMost n 512

@[simp] lemma exceeds_pathDepth_default (n : ℕ) :
    exceeds n (ExpressionParseOptions.pathDepth {}) = decide (16 < n) :=
  exceeds_atMost n 16

@[simp] lemma exceeds_arrayIndex_default (n : ℕ) :
    exceeds n (ExpressionParseOptions.arrayIndex {}) = decide (10000 < n) :=
  exceeds_atMost n 10000

/-! ## The matches -/

/-- A pair and what stands around it. -/
lemma eq_of_findPair {c : Char} :
    ∀ {chars before after : List Char}, findPair c chars = some (before, after) →
      chars = before ++ c :: c :: after := by
  intro chars
  induction chars with
  | nil => intro before after h; cases h
  | cons a chars ih =>
    intro before after h
    cases chars with
    | nil => cases h
    | cons b rest =>
      rw [findPair] at h
      split_ifs at h with hpair
      · obtain ⟨rfl, rfl⟩ := hpair
        cases h
        rfl
      · obtain ⟨⟨before', after'⟩, hfound, ⟨⟩⟩ := Option.map_eq_some_iff.mp h
        rw [ih hfound, List.cons_append]

variable {chars gap inside inner after : List Char}

/-- What is left after a match is shorter. -/
lemma length_of_match (hopen : findPair '\x7b' chars = some (gap, inside))
    (hclose : findPair '\x7d' inside = some (inner, after)) : after.length < chars.length := by
  rw [eq_of_findPair hopen, eq_of_findPair hclose]
  simp only [List.length_append, List.length_cons]
  omega

/-- The bound on the number of matches does not matter. -/
lemma scanFuel_eq (fuel : ℕ) :
    ∀ {fuel' : ℕ} {chars : List Char}, chars.length ≤ fuel → chars.length ≤ fuel' →
      scanFuel fuel chars = scanFuel fuel' chars := by
  induction fuel with
  | zero =>
    intro fuel' chars h _
    obtain rfl : chars = [] := List.length_eq_zero_iff.mp (by omega)
    cases fuel' <;> rfl
  | succ fuel ih =>
    intro fuel' chars h h'
    cases fuel' with
    | zero =>
      obtain rfl : chars = [] := List.length_eq_zero_iff.mp (by omega)
      rfl
    | succ fuel' =>
      simp only [scanFuel]
      cases hopen : findPair '\x7b' chars with
      | none => rfl
      | some opened =>
        obtain ⟨gap, inside⟩ := opened
        cases hclose : findPair '\x7d' inside with
        | none => simp only [hclose]
        | some closed =>
          obtain ⟨inner, after⟩ := closed
          have hshort := length_of_match hopen hclose
          have hrest : scanFuel fuel after = scanFuel fuel' after :=
            ih (by omega) (by omega)
          simp only [hclose, hrest]

/-- No match: there is no opening pair, or no closing pair after it. -/
lemma scan_of_none
    (h : ∀ gap inside, findPair '\x7b' chars = some (gap, inside) → findPair '\x7d' inside = none) :
    scan chars = ⟨[], chars⟩ := by
  rw [scan]
  cases hlength : chars.length with
  | zero => rfl
  | succ n =>
    simp only [scanFuel]
    cases hopen : findPair '\x7b' chars with
    | none => rfl
    | some opened => simp only [h opened.1 opened.2 hopen]

/-- Without a match there is only a tail. -/
lemma tail_of_found (h : (scan chars).found = []) : (scan chars).tail = chars := by
  rw [scan] at h ⊢
  cases hlength : chars.length with
  | zero => rfl
  | succ n =>
    rw [hlength] at h
    simp only [scanFuel] at h ⊢
    cases hopen : findPair '\x7b' chars with
    | none => rfl
    | some opened =>
      simp only [hopen] at h ⊢
      cases hclose : findPair '\x7d' opened.2 with
      | none => rfl
      | some closed => simp [hclose] at h

/-- A match, and those after it. -/
lemma scan_of_match (hopen : findPair '\x7b' chars = some (gap, inside))
    (hclose : findPair '\x7d' inside = some (inner, after)) :
    scan chars = ⟨(gap, inner) :: (scan after).found, (scan after).tail⟩ := by
  have hshort := length_of_match hopen hclose
  obtain ⟨n, hn⟩ : ∃ n, chars.length = n + 1 := ⟨chars.length - 1, by omega⟩
  have hrest : scanFuel n after = scan after := scanFuel_eq n (by omega) le_rfl
  simp only [scan, hn, scanFuel, hopen, hclose]
  rw [hrest]
  rfl

/-! ## What is accepted -/

/-- A path into the context, whatever the limits. -/
structure IsPath (raw : String) : Prop where
  nonempty : raw ≠ ""
  supported : ∀ c ∈ raw.toList, c ∉ unsupportedChars
  segments : "" ∉ segmentsOf raw
  allowed : ∀ segment ∈ segmentsOf raw, segment ∉ forbiddenSegments
  named : ∀ segment ∈ segmentsOf raw, isArrayIndex segment = true ∨ isIdentifier segment = true

/-- The path is within the limits. -/
structure PathWithin (options : ExpressionParseOptions) (raw : String) : Prop where
  length : exceeds (utf16Length raw) options.expressionLength = false
  depth : exceeds (segmentsOf raw).length options.pathDepth = false
  index : ∀ segment ∈ segmentsOf raw, isArrayIndex segment = true →
    exceeds (digitsValue segment.toList) options.arrayIndex = false

section Accepted

variable {options : ExpressionParseOptions} {raw : String}

lemma checkSegment_ok_iff {segment : String} :
    checkSegment options raw segment = .ok () ↔ segment ∉ forbiddenSegments ∧
      (isArrayIndex segment = true ∨ isIdentifier segment = true) ∧
      (isArrayIndex segment = true →
        exceeds (digitsValue segment.toList) options.arrayIndex = false) := by
  rw [checkSegment]
  split_ifs with hforbidden hindex hexceeds hname
  · simp [hforbidden]
  · simp [syntaxError, hindex, hexceeds]
  · simp [hforbidden, hindex, hexceeds]
  · simp [hforbidden, hindex, hname]
  · simp [syntaxError, hindex, hname]

lemma checkSegments_ok_iff {segments : List String} :
    checkSegments options raw segments = .ok () ↔
      ∀ segment ∈ segments, checkSegment options raw segment = .ok () := by
  induction segments with
  | nil => simp [checkSegments]
  | cons segment segments ih =>
    rw [checkSegments, List.forall_mem_cons, ← ih]
    cases checkSegment options raw segment <;> simp

/-- **What is accepted as a path is a path, and within the limits.** -/
theorem parsePath_ok_iff {path : ExpressionPath} :
    parsePath options raw = .ok path ↔
      IsPath raw ∧ PathWithin options raw ∧ path = ⟨raw, segmentsOf raw⟩ := by
  have hchars : (raw.toList.any fun c => decide (c ∈ unsupportedChars)) = true ↔
      ¬ ∀ c ∈ raw.toList, c ∉ unsupportedChars := by simp
  have hchecked : checkSegments options raw (segmentsOf raw) = .ok () ↔
      (∀ segment ∈ segmentsOf raw, segment ∉ forbiddenSegments) ∧
      (∀ segment ∈ segmentsOf raw, isArrayIndex segment = true ∨ isIdentifier segment = true) ∧
      ∀ segment ∈ segmentsOf raw, isArrayIndex segment = true →
        exceeds (digitsValue segment.toList) options.arrayIndex = false := by
    simp only [checkSegments_ok_iff, checkSegment_ok_iff, forall_and]
  constructor
  · intro h
    rw [parsePath] at h
    split_ifs at h with hempty hlength hunsupported hsegments hdepth
    iterate 5 cases h
    rw [hchars, not_not] at hunsupported
    split at h
    case h_1 => cases h
    case h_2 hok =>
      obtain ⟨hallowed, hnamed, hindex⟩ := hchecked.mp hok
      exact ⟨⟨hempty, hunsupported, hsegments, hallowed, hnamed⟩,
        ⟨by simpa using hlength, by simpa using hdepth, hindex⟩, (Except.ok.inj h).symm⟩
  · rintro ⟨hpath, hwithin, rfl⟩
    rw [parsePath, if_neg hpath.nonempty, if_neg (by simp [hwithin.length]),
      if_neg (by rw [hchars, not_not]; exact hpath.supported), if_neg hpath.segments,
      if_neg (by simp [hwithin.depth])]
    rw [hchecked.mpr ⟨hpath.allowed, hpath.named, hwithin.index⟩]

/-- The expression between two delimiters. -/
def rawOf (inner : List Char) : String := jsTrim (String.ofList inner)

/-- The parts of the matches. -/
def partsOf (found : List (List Char × List Char)) : List TemplatePart :=
  found.flatMap fun entry =>
    textPart entry.1 ++ [.expression ⟨rawOf entry.2, segmentsOf (rawOf entry.2)⟩]

lemma exceeds_mono {n m : ℕ} {limit : Limit} (h : n ≤ m) (hm : exceeds m limit = false) :
    exceeds n limit = false := by
  cases limit with
  | unlimited => rfl
  | atMost q =>
    simp only [exceeds, decide_eq_false_iff_not, not_lt] at hm ⊢
    exact le_trans (Nat.cast_le.mpr h) hm

/-- The matches are within the limits. -/
structure Within (options : ExpressionParseOptions) (found : List (List Char × List Char)) :
    Prop where
  count : found = [] ∨ exceeds found.length options.interpolations = false
  paths : ∀ entry ∈ found, PathWithin options (rawOf entry.2)

variable {parts : List TemplatePart}

/-- The matches are read if all of them are paths and within the limits. -/
lemma parseFound_ok_iff {found : List (List Char × List Char)} :
    ∀ {expressionCount : ℕ}, parseFound options expressionCount found = .ok parts ↔
      (∀ entry ∈ found, IsPath (rawOf entry.2) ∧ PathWithin options (rawOf entry.2)) ∧
      (found = [] ∨ exceeds (expressionCount + found.length) options.interpolations = false) ∧
      parts = partsOf found := by
  induction found generalizing parts with
  | nil =>
    intro expressionCount
    rw [parseFound]
    simp [partsOf]
  | cons entry found ih =>
    obtain ⟨gap, inner⟩ := entry
    intro expressionCount
    have hparts : partsOf ((gap, inner) :: found) = textPart gap ++
        .expression ⟨rawOf inner, segmentsOf (rawOf inner)⟩ :: partsOf found := by
      simp [partsOf]
    have hlength : expressionCount + ((gap, inner) :: found).length =
        expressionCount + 1 + found.length := by
      simp only [List.length_cons]
      omega
    rw [parseFound, hparts, hlength]
    constructor
    · intro h
      split_ifs at h with hcount
      · cases h
      · split at h
        case h_1 => cases h
        case h_2 path hpath =>
          obtain ⟨hispath, hwithin, rfl⟩ := parsePath_ok_iff.mp hpath
          split at h
          case h_1 => cases h
          case h_2 rest hrest =>
            obtain ⟨hall, hcounts, rfl⟩ := ih.mp hrest
            refine ⟨List.forall_mem_cons.mpr ⟨⟨hispath, hwithin⟩, hall⟩, .inr ?_,
              (Except.ok.inj h).symm⟩
            rcases hcounts with rfl | hcounts
            · simpa using hcount
            · exact hcounts
    · rintro ⟨hall, hcounts, rfl⟩
      obtain ⟨⟨hispath, hwithin⟩, hall⟩ := List.forall_mem_cons.mp hall
      have hcounts : exceeds (expressionCount + 1 + found.length) options.interpolations =
          false := by simpa using hcounts
      have hcount := exceeds_mono (Nat.le_add_right (expressionCount + 1) found.length) hcounts
      have hpath : parsePath options (jsTrim (String.ofList inner)) =
          .ok ⟨rawOf inner, segmentsOf (rawOf inner)⟩ :=
        parsePath_ok_iff.mpr ⟨hispath, hwithin, rfl⟩
      have hrest : parseFound options (expressionCount + 1) found = .ok (partsOf found) :=
        ih.mpr ⟨hall, .inr hcounts, rfl⟩
      simp only [hcount, hpath, hrest, Bool.false_eq_true, if_false]

/-- What a text is parsed to, whatever the limits. -/
def templateOf (source : String) : ParsedTemplate where
  source
  parts := partsOf (scan source.toList).found ++ textPart (scan source.toList).tail
  expressionCount := (scan source.toList).found.length
  isSingleExpression :=
    isSingle (partsOf (scan source.toList).found ++ textPart (scan source.toList).tail)

variable {source : String}

lemma parseTail_ok_iff {tail : List Char} :
    parseTail source tail = .ok parts ↔ plainChars tail = true ∧ parts = textPart tail := by
  rw [parseTail]
  split_ifs with hplain
  · simp [hplain, eq_comm]
  · simp [syntaxError, hplain]

/-- The text is a template, whatever the limits. -/
structure IsTemplate (source : String) : Prop where
  paths : ∀ entry ∈ (scan source.toList).found, IsPath (rawOf entry.2)
  tail : plainChars (scan source.toList).tail = true

/-- **What is accepted as a template is a template, and within the limits; its parts do not depend
on them.** -/
theorem parseTemplate_ok_iff {parsed : ParsedTemplate} :
    parseTemplate options source = .ok parsed ↔
      IsTemplate source ∧ Within options (scan source.toList).found ∧
      parsed = templateOf source := by
  rw [parseTemplate]
  constructor
  · intro h
    split at h
    case h_1 => cases h
    case h_2 parts hparts =>
      obtain ⟨hall, hcount, rfl⟩ := parseFound_ok_iff.mp hparts
      split at h
      case h_1 => cases h
      case h_2 tail htail =>
        obtain ⟨hplain, rfl⟩ := parseTail_ok_iff.mp htail
        rw [Nat.zero_add] at hcount
        exact ⟨⟨fun entry hmem => (hall entry hmem).1, hplain⟩,
          ⟨hcount, fun entry hmem => (hall entry hmem).2⟩, (Except.ok.inj h).symm⟩
  · rintro ⟨htemplate, hwithin, rfl⟩
    have hparts : parseFound options 0 (scan source.toList).found =
        .ok (partsOf (scan source.toList).found) := by
      refine parseFound_ok_iff.mpr ⟨fun entry hmem => ?_, ?_, rfl⟩
      · exact ⟨htemplate.paths entry hmem, hwithin.paths entry hmem⟩
      · rw [Nat.zero_add]
        exact hwithin.count
    have htail : parseTail source (scan source.toList).tail =
        .ok (textPart (scan source.toList).tail) := parseTail_ok_iff.mpr ⟨htemplate.tail, rfl⟩
    simp only [hparts, htail]
    rfl

/-- The limits do not matter for a text without delimiters. -/
lemma parseTemplate_plain (h : Plain source) :
    parseTemplate options source = .ok (templateOf source) ∧
      (templateOf source).expressionCount = 0 := by
  have hopen : findPair '\x7b' source.toList = none := by
    simp only [Plain, plainChars, Bool.and_eq_true, Option.isNone_iff_eq_none] at h
    exact h.1
  have hscan : scan source.toList = ⟨[], source.toList⟩ := scan_of_none (by simp [hopen])
  refine ⟨parseTemplate_ok_iff.mpr ⟨⟨by simp [hscan], by rwa [hscan]⟩, ⟨.inl ?_, ?_⟩, rfl⟩, ?_⟩
  · rw [hscan]
  · simp [hscan]
  · simp [templateOf, hscan]

/-- A text that is accepted has no expression exactly if it is plain. -/
lemma expressionCount_eq_zero_iff {parsed : ParsedTemplate}
    (h : parseTemplate options source = .ok parsed) : parsed.expressionCount = 0 ↔ Plain source := by
  obtain ⟨htemplate, -, rfl⟩ := parseTemplate_ok_iff.mp h
  refine ⟨fun hcount => ?_, fun hplain => (@parseTemplate_plain options _ hplain).2⟩
  have htail := htemplate.tail
  rwa [tail_of_found (List.length_eq_zero_iff.mp hcount)] at htail

end Accepted

end Flowmind.Expression
