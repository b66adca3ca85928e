import Flowmind.Expression.Parser
import Mathlib.Data.List.Forall2

/-!
# Templates are cut at their delimiters

A text can be cut into texts without delimiters and expressions, each from an opening pair to the
first closing pair after it.  The parser looks for delimiters that are left over only after the last
expression, so that it accepts texts that cannot be cut.

* `Split` — a text is cut into pieces; `exists_split_iff` — when it can be.
* `stray_closing_pair` — a closing pair before an expression is taken as text.
* `parse_splits_iff` — the texts for which the parser finds the pieces, and rejects the delimiters
  exactly when there are none.
-/

namespace Flowmind.Expression

/-! ## Pairs -/

/-- The character does not occur twice in a row. -/
def NoPair (c : Char) (chars : List Char) : Prop := ¬ [c, c] <:+: chars

variable {c : Char}

lemma NoPair.of_within {chars chars' : List Char} (h : NoPair c chars)
    (hwithin : chars' <:+: chars) : NoPair c chars' :=
  fun hpair => h (hpair.trans hwithin)

lemma noPair_nil (c : Char) : NoPair c [] := by simp [NoPair]

lemma noPair_singleton (c d : Char) : NoPair c [d] := by
  intro h
  have := h.length_le
  simp at this

lemma noPair_cons_cons {a b : Char} {chars : List Char} :
    NoPair c (a :: b :: chars) ↔ ¬ (a = c ∧ b = c) ∧ NoPair c (b :: chars) := by
  rw [NoPair, List.infix_cons_iff, NoPair]
  simp [eq_comm]

/-- A character in front that is another one. -/
lemma NoPair.cons {d : Char} {chars : List Char} (h : NoPair c chars) (hne : d ≠ c) :
    NoPair c (d :: chars) := by
  cases chars with
  | nil => exact noPair_singleton c d
  | cons b chars => exact noPair_cons_cons.mpr ⟨fun hpair => hne hpair.1, h⟩

/-- No pair arises where the texts are joined. -/
lemma NoPair.append {before after : List Char} (hbefore : NoPair c before) (hafter : NoPair c after)
    (hjoin : before.getLast? = some c → after.head? ≠ some c) : NoPair c (before ++ after) := by
  induction before with
  | nil => exact hafter
  | cons a before ih =>
    cases before with
    | nil =>
      cases after with
      | nil => exact noPair_singleton c a
      | cons b after =>
        refine noPair_cons_cons.mpr ⟨fun hpair => ?_, hafter⟩
        exact hjoin (congrArg some hpair.1) (congrArg some hpair.2)
    | cons b before =>
      obtain ⟨hne, hrest⟩ := noPair_cons_cons.mp hbefore
      exact noPair_cons_cons.mpr ⟨hne, ih hrest fun hlast => hjoin (by simpa using hlast)⟩

/-- A pair with a character that is added at the end. -/
lemma NoPair.exists_append_of_not {chars : List Char} (h : NoPair c chars)
    (hpair : ¬ NoPair c (chars ++ [c])) : ∃ before, chars = before ++ [c] := by
  rw [NoPair, not_not, List.infix_concat_iff] at hpair
  rcases hpair with ⟨before, hbefore⟩ | hpair
  · have hreverse := congrArg List.reverse hbefore
    simp only [List.reverse_append, List.reverse_cons, List.reverse_nil, List.nil_append,
      List.cons_append, List.cons.injEq, true_and] at hreverse
    refine ⟨before, ?_⟩
    rw [← List.reverse_inj, ← hreverse]
    simp
  · exact absurd hpair h

lemma findPair_eq_none_iff {chars : List Char} : findPair c chars = none ↔ NoPair c chars := by
  induction chars with
  | nil => simp [findPair, noPair_nil]
  | cons a chars ih =>
    cases chars with
    | nil => simp [findPair, noPair_singleton]
    | cons b rest =>
      rw [findPair, noPair_cons_cons]
      split_ifs with hpair
      · simp [hpair]
      · simp only [Option.map_eq_none_iff, ih, hpair, not_false_eq_true, true_and]

/-- The first pair: there is none before it. -/
lemma noPair_of_findPair :
    ∀ {chars before after : List Char}, findPair c chars = some (before, after) →
      NoPair c (before ++ [c]) := by
  intro chars
  induction chars with
  | nil => intro before after h; cases h
  | cons a chars ih =>
    intro before after h
    cases chars with
    | nil => cases h
    | cons b rest =>
      rw [findPair] at h
      split_ifs at h with hpair
      · cases h
        exact noPair_singleton c c
      · obtain ⟨⟨before', after'⟩, hfound, ⟨⟩⟩ := Option.map_eq_some_iff.mp h
        have hbefore := ih hfound
        have hchars := eq_of_findPair hfound
        cases before' with
        | nil =>
          obtain ⟨rfl, rfl⟩ := List.cons.inj hchars
          refine noPair_cons_cons.mpr ⟨fun h => hpair ⟨h.1, rfl⟩, noPair_singleton b b⟩
        | cons d before' =>
          obtain ⟨rfl, hchars⟩ := List.cons.inj hchars
          exact noPair_cons_cons.mpr ⟨hpair, hbefore⟩

/-- The first pair is found. -/
lemma findPair_append {before : List Char} (after : List Char) (h : NoPair c (before ++ [c])) :
    findPair c (before ++ c :: c :: after) = some (before, after) := by
  induction before with
  | nil => simp [findPair]
  | cons a before ih =>
    cases before with
    | nil =>
      have hne : ¬ (a = c ∧ c = c) := (noPair_cons_cons.mp h).1
      change findPair c (a :: c :: c :: after) = _
      rw [findPair, if_neg hne]
      simp [findPair]
    | cons b before =>
      obtain ⟨hne, hrest⟩ := noPair_cons_cons.mp h
      change findPair c (a :: b :: (before ++ c :: c :: after)) = _
      rw [findPair, if_neg hne]
      have hfound := ih hrest
      rw [List.cons_append] at hfound
      rw [hfound]
      rfl

/-- No delimiter in the text. -/
def Clean (chars : List Char) : Prop := NoPair '\x7b' chars ∧ NoPair '\x7d' chars

lemma plainChars_iff {chars : List Char} : plainChars chars = true ↔ Clean chars := by
  simp [plainChars, Clean, findPair_eq_none_iff]

/-! ## Pieces -/

/-- A piece of a text. -/
inductive Piece where
  | text (chars : List Char)
  | expression (inner : List Char)
deriving DecidableEq, Repr

namespace Piece

/-- The piece as it is written. -/
def chars : Piece → List Char
  | text chars => chars
  | expression inner => '\x7b' :: '\x7b' :: (inner ++ ['\x7d', '\x7d'])

def isText : Piece → Bool
  | text _ => true
  | expression _ => false

end Piece

/-- The text is cut into the pieces: texts without delimiters, no two of them side by side, and
expressions that end at the first closing pair. -/
structure Split (pieces : List Piece) (chars : List Char) : Prop where
  joined : pieces.flatMap Piece.chars = chars
  texts : ∀ text, .text text ∈ pieces → text ≠ [] ∧ Clean text
  expressions : ∀ inner, .expression inner ∈ pieces → NoPair '\x7d' (inner ++ ['\x7d'])
  apart : pieces.IsChain fun piece next => piece.isText = true → next.isText = false

/-- The piece of a text, unless it is empty. -/
def textPiece (chars : List Char) : List Piece := if chars = [] then [] else [.text chars]

/-- The pieces that the regular expression finds. -/
def Scan.pieces (s : Scan) : List Piece :=
  (s.found.flatMap fun entry => textPiece entry.1 ++ [.expression entry.2]) ++ textPiece s.tail

/-- The matches are found one after the other. -/
lemma scan_induction {motive : List Char → Prop}
    (none : ∀ chars, scan chars = ⟨[], chars⟩ → motive chars)
    (found : ∀ chars gap inside inner after, findPair '\x7b' chars = some (gap, inside) →
      findPair '\x7d' inside = some (inner, after) → motive after → motive chars)
    (chars : List Char) : motive chars := by
  induction hlength : chars.length using Nat.strong_induction_on generalizing chars with
  | _ n ih =>
    cases hopen : findPair '\x7b' chars with
    | none => exact none chars (scan_of_none (by simp [hopen]))
    | some opened =>
      obtain ⟨gap, inside⟩ := opened
      cases hclose : findPair '\x7d' inside with
      | none =>
        refine none chars (scan_of_none fun gap' inside' h => ?_)
        cases hopen.symm.trans h
        exact hclose
      | some closed =>
        obtain ⟨inner, after⟩ := closed
        have hshort := length_of_match hopen hclose
        exact found chars gap inside inner after hopen hclose
          (ih after.length (hlength ▸ hshort) after rfl)

lemma flatMap_textPiece (chars : List Char) : (textPiece chars).flatMap Piece.chars = chars := by
  rw [textPiece]
  split_ifs with h
  · simp [h]
  · simp [Piece.chars]

variable {inner after : List Char}

/-- A match in front of the pieces. -/
lemma pieces_of_match {chars gap inside : List Char}
    (hopen : findPair '\x7b' chars = some (gap, inside))
    (hclose : findPair '\x7d' inside = some (inner, after)) :
    (scan chars).pieces = textPiece gap ++ .expression inner :: (scan after).pieces := by
  rw [scan_of_match hopen hclose]
  simp [Scan.pieces]

/-- The pieces make up the text. -/
lemma joined_scan (chars : List Char) : (scan chars).pieces.flatMap Piece.chars = chars := by
  induction chars using scan_induction with
  | none chars h =>
    rw [h]
    simp [Scan.pieces, flatMap_textPiece]
  | found chars gap inside inner after hopen hclose ih =>
    rw [pieces_of_match hopen hclose, List.flatMap_append, flatMap_textPiece, List.flatMap_cons,
      ih, eq_of_findPair hopen, eq_of_findPair hclose]
    simp [Piece.chars]

/-- An expression may stand before anything. -/
lemma isChain_expression_cons (inner : List Char) {pieces : List Piece} :
    (Piece.expression inner :: pieces).IsChain
        (fun piece next => piece.isText = true → next.isText = false) ↔
      pieces.IsChain fun piece next => piece.isText = true → next.isText = false := by
  cases pieces with
  | nil => simp
  | cons piece pieces => simp [Piece.isText]

/-- The texts are not side by side. -/
lemma apart_scan (chars : List Char) :
    (scan chars).pieces.IsChain fun piece next => piece.isText = true → next.isText = false := by
  induction chars using scan_induction with
  | none chars h =>
    rw [h, Scan.pieces, textPiece]
    split_ifs <;> simp
  | found chars gap inside inner after hopen hclose ih =>
    rw [pieces_of_match hopen hclose, textPiece]
    have hrest := (isChain_expression_cons inner).mpr ih
    split_ifs
    · exact hrest
    · exact List.isChain_cons_cons.mpr ⟨fun _ => rfl, hrest⟩

/-- What the matches are made of. -/
lemma found_scan (chars : List Char) :
    ∀ entry ∈ (scan chars).found, NoPair '\x7b' (entry.1 ++ ['\x7b']) ∧
      NoPair '\x7d' (entry.2 ++ ['\x7d']) := by
  induction chars using scan_induction with
  | none chars h =>
    rw [h]
    simp
  | found chars gap inside inner after hopen hclose ih =>
    rw [scan_of_match hopen hclose]
    exact List.forall_mem_cons.mpr ⟨⟨noPair_of_findPair hopen, noPair_of_findPair hclose⟩, ih⟩

lemma mem_textPiece {chars : List Char} {piece : Piece} :
    piece ∈ textPiece chars ↔ piece = .text chars ∧ chars ≠ [] := by
  rw [textPiece]
  split_ifs with h <;> simp [h]

/-- The pieces of the regular expression are a split if the texts have no delimiters. -/
lemma split_scan {chars : List Char} (hgaps : ∀ entry ∈ (scan chars).found, NoPair '\x7d' entry.1)
    (htail : Clean (scan chars).tail) : Split (scan chars).pieces chars where
  joined := joined_scan chars
  texts text hmem := by
    simp only [Scan.pieces, List.mem_append, List.mem_flatMap, mem_textPiece, List.mem_singleton,
      Piece.text.injEq, reduceCtorEq, or_false] at hmem
    rcases hmem with ⟨entry, hentry, rfl, hne⟩ | ⟨rfl, hne⟩
    · have hopen := (found_scan chars entry hentry).1
      exact ⟨hne, hopen.of_within (List.prefix_append _ _).isInfix, hgaps entry hentry⟩
    · exact ⟨hne, htail⟩
  expressions inner hmem := by
    simp only [Scan.pieces, List.mem_append, List.mem_flatMap, mem_textPiece, List.mem_singleton,
      Piece.expression.injEq, reduceCtorEq, false_and, false_or, or_false] at hmem
    obtain ⟨entry, hentry, rfl⟩ := hmem
    exact (found_scan chars entry hentry).2
  apart := apart_scan chars

lemma Split.of_cons {piece : Piece} {pieces : List Piece} {chars : List Char}
    (h : Split (piece :: pieces) chars) : Split pieces (pieces.flatMap Piece.chars) where
  joined := rfl
  texts text hmem := h.texts text (List.mem_cons_of_mem _ hmem)
  expressions inner hmem := h.expressions inner (List.mem_cons_of_mem _ hmem)
  apart := h.apart.of_cons

/-- The matches have texts without delimiters, and so has the tail. -/
def Scan.IsClean (s : Scan) : Prop :=
  (∀ entry ∈ s.found, NoPair '\x7d' entry.1) ∧ Clean s.tail

/-- A match with a text without delimiters in front of it. -/
lemma isClean_of_match {chars gap inside : List Char}
    (hopen : findPair '\x7b' chars = some (gap, inside))
    (hclose : findPair '\x7d' inside = some (inner, after)) (hgap : NoPair '\x7d' gap)
    (hafter : (scan after).IsClean) : (scan chars).IsClean := by
  rw [scan_of_match hopen hclose]
  exact ⟨List.forall_mem_cons.mpr ⟨hgap, hafter.1⟩, hafter.2⟩

/-- An expression that is not preceded by a text. -/
lemma isClean_expression (hinner : NoPair '\x7d' (inner ++ ['\x7d']))
    (hafter : (scan after).IsClean) : (scan ((Piece.expression inner).chars ++ after)).IsClean := by
  have hopen : findPair '\x7b' ((Piece.expression inner).chars ++ after) =
      some ([], inner ++ '\x7d' :: '\x7d' :: after) := by
    simp [Piece.chars, findPair]
  exact isClean_of_match hopen (findPair_append after hinner) (noPair_nil _) hafter

/-- An expression after a text.  If the text ends with a brace, the match begins one character
earlier; the text in front of it has no delimiter all the same. -/
lemma isClean_text_expression {text : List Char} (htext : Clean text)
    (hinner : NoPair '\x7d' (inner ++ ['\x7d'])) (hafter : (scan after).IsClean) :
    (scan (text ++ ((Piece.expression inner).chars ++ after))).IsClean := by
  by_cases hlast : NoPair '\x7b' (text ++ ['\x7b'])
  · have hopen : findPair '\x7b' (text ++ ((Piece.expression inner).chars ++ after)) =
        some (text, inner ++ '\x7d' :: '\x7d' :: after) := by
      have hfound := findPair_append (inner ++ '\x7d' :: '\x7d' :: after) hlast
      simpa [Piece.chars] using hfound
    exact isClean_of_match hopen (findPair_append after hinner) htext.2 hafter
  · -- The text ends with an opening brace.
    obtain ⟨text', rfl⟩ := htext.1.exists_append_of_not hlast
    have hopen : findPair '\x7b' (text' ++ ['\x7b'] ++ ((Piece.expression inner).chars ++ after)) =
        some (text', '\x7b' :: (inner ++ '\x7d' :: '\x7d' :: after)) := by
      have hfound := findPair_append ('\x7b' :: (inner ++ '\x7d' :: '\x7d' :: after)) htext.1
      simpa [Piece.chars] using hfound
    have hclose : findPair '\x7d' ('\x7b' :: (inner ++ '\x7d' :: '\x7d' :: after)) =
        some ('\x7b' :: inner, after) := by
      have hshift : NoPair '\x7d' ('\x7b' :: inner ++ ['\x7d']) := hinner.cons (by decide)
      exact findPair_append after hshift
    exact isClean_of_match hopen hclose (htext.2.of_within (List.prefix_append _ _).isInfix) hafter

/-- What can be cut has texts without delimiters between its matches. -/
lemma Split.isClean {pieces : List Piece} :
    ∀ {chars : List Char}, Split pieces chars → (scan chars).IsClean := by
  induction hlength : pieces.length using Nat.strong_induction_on generalizing pieces with
  | _ n ih =>
    intro chars hsplit
    obtain rfl := hsplit.joined
    cases pieces with
    | nil => exact ⟨by simp [scan, scanFuel], noPair_nil _, noPair_nil _⟩
    | cons piece rest =>
      cases piece with
      | expression inner =>
        exact isClean_expression (hsplit.expressions inner (by simp))
          (ih rest.length (by simp [← hlength]) rfl hsplit.of_cons)
      | text text =>
        have htext := (hsplit.texts text (by simp)).2
        cases rest with
        | nil =>
          have hnone : scan text = ⟨[], text⟩ := scan_of_none fun gap inside h => by
            rw [findPair_eq_none_iff.mpr htext.1] at h
            cases h
          simp only [List.flatMap_cons, List.flatMap_nil, List.append_nil, Piece.chars]
          rw [hnone]
          exact ⟨by simp, htext⟩
        | cons next rest =>
          cases next with
          | text other =>
            have := (List.isChain_cons_cons.mp hsplit.apart).1 rfl
            cases this
          | expression inner =>
            have hless : rest.length < n := by
              rw [← hlength, List.length_cons, List.length_cons]
              omega
            exact isClean_text_expression htext
              (hsplit.expressions inner (by simp))
              (ih rest.length hless rfl hsplit.of_cons.of_cons)

/-- **A text can be cut exactly if the texts around its matches have no delimiters.** -/
theorem exists_split_iff {chars : List Char} :
    (∃ pieces, Split pieces chars) ↔ (scan chars).IsClean := by
  constructor
  · rintro ⟨pieces, hsplit⟩
    exact hsplit.isClean
  · intro h
    exact ⟨_, split_scan h.1 h.2⟩

/-! ## The parser -/

/-- A part of a template and the piece that it was made from: a text is taken as it is, an
expression without the white space around it. -/
inductive Spells : TemplatePart → Piece → Prop where
  | text (chars : List Char) : Spells (.text (String.ofList chars)) (.text chars)
  | expression (inner : List Char) (segments : List String) :
      Spells (.expression ⟨rawOf inner, segments⟩) (.expression inner)

def isExpression : TemplatePart → Bool
  | .text _ => false
  | .expression _ => true

/-- The error for delimiters that are left over. -/
abbrev delimiterError (source : String) : Except ExpressionError ParsedTemplate :=
  syntaxError "Invalid expression delimiters" source

section Errors

variable {options : ExpressionParseOptions} {e : ExpressionError}

/-- The message of another error; it begins with another letter. -/
def OtherMessage (e : ExpressionError) : Prop := e.message.toList.head? ≠ some 'I'

lemma otherMessage_of_syntaxError {α : Type} {message expression : String}
    (hmessage : message.toList.head? ≠ some 'I')
    (h : (syntaxError message expression : Except ExpressionError α) = .error e) :
    OtherMessage e := by
  cases h
  exact hmessage

variable {raw : String}

lemma otherMessage_of_checkSegment {segment : String}
    (h : checkSegment options raw segment = .error e) : OtherMessage e := by
  rw [checkSegment] at h
  split_ifs at h
  · cases h
    simp [OtherMessage]
  · exact otherMessage_of_syntaxError (by decide) h
  · refine otherMessage_of_syntaxError ?_ h
    simp

lemma otherMessage_of_checkSegments {segments : List String}
    (h : checkSegments options raw segments = .error e) : OtherMessage e := by
  induction segments with
  | nil => cases h
  | cons segment segments ih =>
    rw [checkSegments] at h
    split at h
    case h_1 e' he =>
      cases h
      exact otherMessage_of_checkSegment he
    case h_2 => exact ih h

lemma otherMessage_of_parsePath (h : parsePath options raw = .error e) : OtherMessage e := by
  rw [parsePath] at h
  split_ifs at h
  iterate 5 exact otherMessage_of_syntaxError (by decide) h
  split at h
  case h_1 e' he =>
    cases h
    exact otherMessage_of_checkSegments he
  case h_2 => cases h

/-- The errors of expressions are not those of delimiters. -/
lemma otherMessage_of_parseFound {found : List (List Char × List Char)} :
    ∀ {expressionCount : ℕ}, parseFound options expressionCount found = .error e →
      OtherMessage e := by
  induction found with
  | nil => intro _ h; cases h
  | cons entry found ih =>
    intro expressionCount h
    rw [parseFound] at h
    split_ifs at h
    · exact otherMessage_of_syntaxError (by decide) h
    · split at h
      case h_1 e' he =>
        cases h
        exact otherMessage_of_parsePath he
      case h_2 =>
        split at h
        case h_1 e' he =>
          cases h
          exact ih he
        case h_2 => cases h

end Errors

section Faithful

variable (options : ExpressionParseOptions) (source : String)

/-- All expressions of the text are accepted. -/
def ExpressionsAccepted : Prop :=
  (∀ entry ∈ (scan source.toList).found, IsPath (rawOf entry.2)) ∧
    Within options (scan source.toList).found

lemma expressionsAccepted_iff :
    ExpressionsAccepted options source ↔
      ∃ parts, parseFound options 0 (scan source.toList).found = .ok parts := by
  simp only [parseFound_ok_iff, Nat.zero_add]
  constructor
  · rintro ⟨hpaths, hwithin⟩
    exact ⟨_, fun entry hmem => ⟨hpaths entry hmem, hwithin.paths entry hmem⟩, hwithin.count, rfl⟩
  · rintro ⟨parts, hall, hcount, -⟩
    exact ⟨fun entry hmem => (hall entry hmem).1, hcount, fun entry hmem => (hall entry hmem).2⟩

/-- The delimiters are rejected after the last expression only. -/
lemma parseTemplate_eq_delimiterError_iff :
    parseTemplate options source = delimiterError source ↔
      ¬ Clean (scan source.toList).tail ∧ ExpressionsAccepted options source := by
  rw [expressionsAccepted_iff, ← plainChars_iff, parseTemplate]
  cases hparts : parseFound options 0 (scan source.toList).found with
  | error e =>
    have hother := otherMessage_of_parseFound hparts
    constructor
    · intro h
      cases h
      exact absurd (show "Invalid expression delimiters".toList.head? = some 'I' by decide) hother
    · rintro ⟨-, parts, hok⟩
      cases hok
  | ok parts =>
    cases hplain : plainChars (scan source.toList).tail with
    | true =>
      have htail : parseTail source (scan source.toList).tail =
          .ok (textPart (scan source.toList).tail) := parseTail_ok_iff.mpr ⟨hplain, rfl⟩
      simp [htail, syntaxError]
    | false =>
      have htail : parseTail source (scan source.toList).tail =
          syntaxError "Invalid expression delimiters" source := by
        rw [parseTail, hplain]
        rfl
      simp [htail, syntaxError]

/-- The parser gives back the pieces of a text, and rejects its delimiters exactly if there are
none. -/
structure Faithful : Prop where
  accepted : ∀ parsed, parseTemplate options source = .ok parsed →
    (∃ pieces, Split pieces source.toList ∧ List.Forall₂ Spells parsed.parts pieces) ∧
    parsed.expressionCount = parsed.parts.countP isExpression
  rejected : parseTemplate options source = delimiterError source ↔
    ¬ ∃ pieces, Split pieces source.toList

lemma forall₂_spells_textPart (chars : List Char) :
    List.Forall₂ Spells (textPart chars) (textPiece chars) := by
  rw [textPart, textPiece]
  split_ifs
  · exact .nil
  · exact .cons (.text chars) .nil

lemma forall₂_spells_partsOf (found : List (List Char × List Char)) :
    List.Forall₂ Spells (partsOf found)
      (found.flatMap fun entry => textPiece entry.1 ++ [.expression entry.2]) := by
  induction found with
  | nil => exact .nil
  | cons entry found ih =>
    refine List.rel_append ?_ ih
    exact List.rel_append (forall₂_spells_textPart entry.1) (.cons (.expression _ _) .nil)

lemma countP_textPart_isExpression (chars : List Char) :
    (textPart chars).countP isExpression = 0 := by
  rw [textPart]
  split_ifs <;> rfl

/-- The counter of the parser is the number of the expressions. -/
lemma countP_partsOf (found : List (List Char × List Char)) :
    (partsOf found).countP isExpression = found.length := by
  induction found with
  | nil => rfl
  | cons entry found ih =>
    simp only [partsOf, List.flatMap_cons, List.countP_append] at ih ⊢
    rw [ih, countP_textPart_isExpression]
    simp [isExpression, Nat.add_comm]

/-- **The parser is faithful to a text exactly if it can be cut, or if only its tail is at fault.**
For every text and all limits: what is accepted is made of the pieces of the text, and the
delimiters are rejected exactly if it has none, if and only if

* no closing pair stands before an expression and no delimiter after the last one, or
* a delimiter stands after the last expression and all expressions are accepted. -/
theorem parse_splits_iff :
    Faithful options source ↔
      (scan source.toList).IsClean ∨
        ¬ Clean (scan source.toList).tail ∧ ExpressionsAccepted options source := by
  rw [← parseTemplate_eq_delimiterError_iff, ← exists_split_iff]
  constructor
  · intro h
    by_cases herror : parseTemplate options source = delimiterError source
    · exact .inr herror
    · exact .inl (not_not.mp fun hnone => herror (h.rejected.mpr hnone))
  · intro h
    refine ⟨fun parsed hparsed => ⟨?_, ?_⟩, ?_⟩
    · have hclean : (scan source.toList).IsClean := by
        rcases h with h | herror
        · exact exists_split_iff.mp h
        · cases herror.symm.trans hparsed
      obtain ⟨-, -, rfl⟩ := parseTemplate_ok_iff.mp hparsed
      exact ⟨_, split_scan hclean.1 hclean.2,
        List.rel_append (forall₂_spells_partsOf _) (forall₂_spells_textPart _)⟩
    · obtain ⟨-, -, rfl⟩ := parseTemplate_ok_iff.mp hparsed
      simp only [templateOf]
      rw [List.countP_append, countP_partsOf, countP_textPart_isExpression, Nat.add_zero]
    · constructor
      · intro herror hsplit
        have hclean := exists_split_iff.mp hsplit
        exact ((parseTemplate_eq_delimiterError_iff options source).mp herror).1 hclean.2
      · intro hnone
        exact h.resolve_left hnone

end Faithful

/-- A closing pair before an expression is taken as text. -/
theorem stray_closing_pair :
    (parseTemplate {} "\x7d\x7d \x7b\x7ba\x7d\x7d").toOption.map (·.parts) =
        some [.text "\x7d\x7d ", .expression ⟨"a", ["a"]⟩] ∧
      ¬ ∃ pieces, Split pieces "\x7d\x7d \x7b\x7ba\x7d\x7d".toList := by
  refine ⟨by decide +kernel, fun hsplit => ?_⟩
  have hgap := (exists_split_iff.mp hsplit).1 (['\x7d', '\x7d', ' '], ['a']) (by decide +kernel)
  exact hgap (by decide)

end Flowmind.Expression
