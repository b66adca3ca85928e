import Flowmind.Expression.Parser
import Flowmind.Expression.Resolver

/-!
# Names and references

The names of variables and the keys of steps follow patterns of their own; an expression refers to
them by a path.  A minus sign is legal in both, and the parser takes it for an operator; `eval` is
legal, and the parser forbids it.

* `assertVariableName`, `isStepKey` — the names that are accepted.
* `parses_dotted_iff` — the paths that are accepted, by their segments.
* `names_referable_iff` — which names can be referenced; `minus_not_referable`.
-/

namespace Flowmind.Expression

/-! ## The patterns -/

/-- `[A-Za-z0-9_-]`. -/
def isNameChar (c : Char) : Bool := c.isAlphanum || c == '_' || c == '-'

/-- `VARIABLE_NAME_PATTERN`, which is `/^[A-Za-z_][A-Za-z0-9_-]{0,63}$/`. -/
def variableNamePattern (name : String) : Bool :=
  match name.toList with
  | [] => false
  | first :: rest => (first.isAlpha || first == '_') && rest.all isNameChar && rest.length ≤ 63

def variableDangerousKeys : List String := ["__proto__", "prototype", "constructor"]

def variableReservedNames : List String :=
  ["trigger", "workflow", "execution", "variables", "steps", "system", "timestamp", "item", "index",
    "metadata", "organization", "connection", "environment", "__runtime"]

inductive VariableErrorCode where
  | invalidName | reservedName
deriving DecidableEq, Repr

/-- `WorkflowVariableValidationError`. -/
structure VariableError where
  code : VariableErrorCode
  message : String
deriving DecidableEq, Repr

def invalidName : VariableError where
  code := .invalidName
  message := "Variable name must be 1-64 chars using letters, numbers, _ or - and start with a " ++
    "letter or _."

def assertVariableName : Json → Except VariableError String
  | .str name =>
    if variableNamePattern name then
      if name ∈ variableReservedNames ∨ name ∈ variableDangerousKeys then
        .error ⟨.reservedName, "Variable name \"" ++ name ++ "\" is reserved."⟩
      else .ok name
    else .error invalidName
  | _ => .error invalidName

/-- `STEP_KEY_PATTERN`, which is `/^[a-zA-Z0-9_-]{1,64}$/`. -/
def isStepKey (key : String) : Bool :=
  key.toList.all isNameChar && decide (1 ≤ key.toList.length ∧ key.toList.length ≤ 64)

/-! ## Paths by their segments -/

/-- A segment that the parser accepts. -/
structure Readable (segment : String) : Prop where
  minus : '-' ∉ segment.toList
  allowed : segment ∉ forbiddenSegments
  named : isArrayIndex segment = true ∨ isIdentifier segment = true
  index : isArrayIndex segment = true → digitsValue segment.toList ≤ 10000

/-- The segments with dots between them. -/
def dotted (segments : List String) : String :=
  String.ofList (['.'].intercalate (segments.map String.toList))

/-- A name as both patterns have it. -/
structure IsName (segment : String) : Prop where
  nonempty : segment ≠ ""
  chars : ∀ c ∈ segment.toList, isNameChar c = true

lemma IsName.dot {segment : String} (h : IsName segment) : '.' ∉ segment.toList := by
  intro hdot
  have := h.chars _ hdot
  revert this
  decide

variable {segments : List String}

lemma segmentsOf_dotted (hne : segments ≠ []) (h : ∀ segment ∈ segments, '.' ∉ segment.toList) :
    segmentsOf (dotted segments) = segments := by
  rw [segmentsOf, dotted, String.toList_ofList, List.splitOn_intercalate]
  · simp
  · intro chars hchars
    obtain ⟨segment, hsegment, rfl⟩ := List.mem_map.mp hchars
    exact h segment hsegment
  · simpa using hne

lemma toList_dotted_cons (segment next : String) (segments : List String) :
    (dotted (segment :: next :: segments)).toList =
      segment.toList ++ '.' :: (dotted (next :: segments)).toList := by
  simp [dotted]

/-- The characters of a path are those of its segments, and dots. -/
lemma forall_mem_dotted_iff {p : Char → Prop} (hdot : p '.') (segments : List String) :
    (∀ c ∈ (dotted segments).toList, p c) ↔ ∀ segment ∈ segments, ∀ c ∈ segment.toList, p c := by
  induction segments with
  | nil => simp [dotted]
  | cons segment segments ih =>
    cases segments with
    | nil => simp [dotted]
    | cons next segments =>
      rw [toList_dotted_cons, List.forall_mem_append, List.forall_mem_cons, ih]
      simp [hdot]

variable {c : Char}

lemma toNat_lt_of_isNameChar (h : isNameChar c = true) : c.toNat < 0x10000 := by
  delta isNameChar Char.isAlphanum Char.isAlpha Char.isUpper Char.isLower Char.isDigit at h
  simp only [Bool.or_eq_true, Bool.and_eq_true, decide_eq_true_eq, beq_iff_eq] at h
  rcases h with ((( ⟨-, h⟩ | ⟨-, h⟩) | ⟨-, h⟩) | rfl) | rfl
  · exact lt_of_le_of_lt h (by decide)
  · exact lt_of_le_of_lt h (by decide)
  · exact lt_of_le_of_lt h (by decide)
  · decide
  · decide

/-- Every character of a path of names is one code unit. -/
lemma utf16Length_of_ascii {s : String} (h : ∀ c ∈ s.toList, c.toNat < 0x10000) :
    utf16Length s = s.toList.length := by
  rw [utf16Length]
  have hone : ∀ c ∈ s.toList, utf16Width c = 1 := fun c hc => if_pos (h c hc)
  rw [List.map_congr_left hone]
  simp

lemma eq_minus_of_unsupported (h : c ∈ unsupportedChars) (hname : isNameChar c = true) :
    c = '-' := by
  have hall : unsupportedChars.all (fun c => !isNameChar c || c == '-') = true := by decide
  simpa [hname] using List.all_eq_true.mp hall c h

/-- **A path of names is accepted if each of its segments is**, where it is short enough. -/
lemma parses_dotted_iff (hne : segments ≠ []) (hnames : ∀ segment ∈ segments, IsName segment)
    (hlength : (dotted segments).toList.length ≤ 512) (hdepth : segments.length ≤ 16) :
    parsePath {} (dotted segments) = .ok ⟨dotted segments, segments⟩ ↔
      ∀ segment ∈ segments, Readable segment := by
  have hsegments := segmentsOf_dotted hne fun segment hmem => (hnames segment hmem).dot
  have hwidth : utf16Length (dotted segments) = (dotted segments).toList.length :=
    utf16Length_of_ascii ((forall_mem_dotted_iff (by decide) segments).mpr
      fun segment hmem c hc => toNat_lt_of_isNameChar ((hnames segment hmem).chars c hc))
  rw [parsePath_ok_iff, hsegments]
  constructor
  · rintro ⟨hpath, hwithin, -⟩ segment hmem
    have hsupported := (forall_mem_dotted_iff (by decide) segments).mp hpath.supported
    refine ⟨fun hminus => hsupported segment hmem _ hminus (by decide), ?_, ?_, fun hindex => ?_⟩
    · exact hpath.allowed segment (by rwa [hsegments])
    · exact hpath.named segment (by rwa [hsegments])
    · simpa using hwithin.index segment (by rwa [hsegments]) hindex
  · intro h
    refine ⟨⟨?_, ?_, ?_, ?_, ?_⟩, ⟨?_, ?_, ?_⟩, rfl⟩
    · intro hempty
      have hone := segmentsOf_dotted hne fun segment hmem => (hnames segment hmem).dot
      rw [hempty] at hone
      exact (hnames "" (by rw [← hone]; decide)).nonempty rfl
    · refine (forall_mem_dotted_iff (by decide) segments).mpr fun segment hmem c hc hc' => ?_
      have hminus := eq_minus_of_unsupported hc' ((hnames segment hmem).chars c hc)
      exact (h segment hmem).minus (hminus ▸ hc)
    · rw [hsegments]
      exact fun hmem => (hnames "" hmem).nonempty rfl
    · rw [hsegments]
      exact fun segment hmem => (h segment hmem).allowed
    · rw [hsegments]
      exact fun segment hmem => (h segment hmem).named
    · simpa [hwidth] using hlength
    · simpa [hsegments] using hdepth
    · rw [hsegments]
      intro segment hmem hindex
      simpa using (h segment hmem).index hindex

/-! ## References -/

/-- The objects in the scope lead to the value by these fields. -/
inductive Leads : List String → Json → Json → Prop
  | here (value : Json) : Leads [] value value
  | field {segment : String} {segments : List String} {fields : List (String × Json)}
      {entry value : Json} (hentry : fields.lookup segment = some entry)
      (hrest : Leads segments entry value) : Leads (segment :: segments) (.obj fields) value

lemma Leads.readPath {scope value : Json} (h : Leads segments scope value) :
    readPath segments scope = some value := by
  induction h with
  | here value => rfl
  | field hentry _ ih => simpa only [Flowmind.readPath, hentry] using ih

/-- The text is accepted as a path, and its value is what the fields lead to. -/
def Referable (raw : String) (segments : List String) : Prop :=
  ∃ path, parsePath {} raw = .ok path ∧
    ∀ scope value, Leads segments scope value → readPath path.segments scope = some value

lemma referable_dotted_iff (hne : segments ≠ []) (hnames : ∀ segment ∈ segments, IsName segment)
    (hlength : (dotted segments).toList.length ≤ 512) (hdepth : segments.length ≤ 16) :
    Referable (dotted segments) segments ↔ ∀ segment ∈ segments, Readable segment := by
  rw [← parses_dotted_iff hne hnames hlength hdepth]
  constructor
  · rintro ⟨path, hpath, -⟩
    obtain ⟨-, -, rfl⟩ := parsePath_ok_iff.mp hpath
    rwa [segmentsOf_dotted hne fun segment hmem => (hnames segment hmem).dot] at hpath
  · intro hparsed
    exact ⟨_, hparsed, fun scope value hleads => hleads.readPath⟩

/-- The value of the variable is read by its name. -/
def VariableReferable (name : String) : Prop := Referable ("variables." ++ name) ["variables", name]

/-- The output of the step is read by its key. -/
def StepReferable (key : String) : Prop :=
  Referable ("steps." ++ key ++ ".output") ["steps", key, "output"]

variable {name : String}

lemma variableReferable_iff_readable (hname : IsName name) (hlength : name.toList.length ≤ 64) :
    VariableReferable name ↔ Readable name := by
  have hraw : "variables." ++ name = dotted ["variables", name] :=
    String.toList_injective (by simp [dotted])
  have hshort : (dotted ["variables", name]).toList.length ≤ 512 := by
    simp only [dotted]
    simp
    omega
  rw [VariableReferable, hraw, referable_dotted_iff (by simp) ?_ hshort (by simp)]
  · have : Readable "variables" := ⟨by decide, by decide, by decide, by decide⟩
    simp [this]
  · have : IsName "variables" := ⟨by decide, List.all_eq_true.mp (by decide)⟩
    simp [this, hname]

lemma stepReferable_iff_readable {key : String} (hname : IsName key)
    (hlength : key.toList.length ≤ 64) : StepReferable key ↔ Readable key := by
  have hraw : "steps." ++ key ++ ".output" = dotted ["steps", key, "output"] :=
    String.toList_injective (by simp [dotted])
  have hshort : (dotted ["steps", key, "output"]).toList.length ≤ 512 := by
    simp only [dotted]
    simp
    omega
  rw [StepReferable, hraw, referable_dotted_iff (by simp) ?_ hshort (by simp)]
  · have hsteps : Readable "steps" := ⟨by decide, by decide, by decide, by decide⟩
    have houtput : Readable "output" := ⟨by decide, by decide, by decide, by decide⟩
    simp [hsteps, houtput]
  · have hsteps : IsName "steps" := ⟨by decide, List.all_eq_true.mp (by decide)⟩
    have houtput : IsName "output" := ⟨by decide, List.all_eq_true.mp (by decide)⟩
    simp [hsteps, houtput, hname]

/-! ## Legal names -/

lemma isName_of_isStepKey {key : String} (h : isStepKey key = true) :
    IsName key ∧ key.toList.length ≤ 64 := by
  simp only [isStepKey, Bool.and_eq_true, List.all_eq_true, decide_eq_true_eq] at h
  obtain ⟨hchars, hpositive, hlength⟩ := h
  refine ⟨⟨?_, hchars⟩, hlength⟩
  rintro rfl
  simp at hpositive

lemma not_isDigit_of_isAlpha (h : c.isAlpha = true ∨ c = '_') : ¬ c.isDigit = true := by
  delta Char.isAlpha Char.isUpper Char.isLower at h
  delta Char.isDigit
  simp only [Bool.or_eq_true, Bool.and_eq_true, decide_eq_true_eq, UInt32.le_iff_toNat_le, not_and,
    not_le] at h ⊢
  intro _
  rcases h with (⟨h, -⟩ | ⟨h, -⟩) | rfl
  · exact lt_of_lt_of_le (by decide) h
  · exact lt_of_lt_of_le (by decide) h
  · decide

/-- A name that the pattern of variables accepts is an identifier, and a key for a step. -/
lemma isIdentifier_of_variableNamePattern (h : variableNamePattern name = true) :
    isIdentifier name = true ∧ isArrayIndex name = false ∧ isStepKey name = true := by
  rw [variableNamePattern] at h
  rw [isIdentifier, isArrayIndex, isStepKey]
  cases hchars : name.toList with
  | nil => simp [hchars] at h
  | cons first rest =>
    simp only [hchars, Bool.and_eq_true, Bool.or_eq_true, beq_iff_eq] at h
    obtain ⟨⟨hfirst, hrest⟩, hlength⟩ := h
    have hdigit := not_isDigit_of_isAlpha hfirst
    refine ⟨?_, ?_, ?_⟩
    · simpa [hfirst, isNameChar] using hrest
    · simp [hdigit]
    · have hname : isNameChar first = true := by
        simp only [isNameChar, Char.isAlphanum, Bool.or_eq_true, beq_iff_eq]
        tauto
      simpa [hname, Nat.lt_succ_iff] using And.intro hrest hlength

lemma assertVariableName_ok_iff :
    assertVariableName (.str name) = .ok name ↔ variableNamePattern name = true ∧
      name ∉ variableReservedNames ∧ name ∉ variableDangerousKeys := by
  rw [assertVariableName]
  split_ifs with hpattern hreserved
  · tauto
  · simpa [hpattern] using hreserved
  · simp [hpattern]

/-- **Which legal names can be referenced.**

* A variable can if its name has no minus sign and is not `eval`.
* A step's output can if its key has no minus sign, is not forbidden, and is an identifier or an
  index within the limit. -/
theorem names_referable_iff (name : String) :
    (assertVariableName (.str name) = .ok name →
      (VariableReferable name ↔ '-' ∉ name.toList ∧ name ≠ "eval")) ∧
    (isStepKey name = true →
      (StepReferable name ↔ '-' ∉ name.toList ∧ name ∉ forbiddenSegments ∧
        (isArrayIndex name = true ∨ isIdentifier name = true) ∧
        (isArrayIndex name = true → digitsValue name.toList ≤ 10000))) := by
  refine ⟨fun hname => ?_, fun hkey => ?_⟩
  · obtain ⟨hpattern, -, hsafe⟩ := assertVariableName_ok_iff.mp hname
    obtain ⟨hidentifier, hindex, hkey⟩ := isIdentifier_of_variableNamePattern hpattern
    obtain ⟨hisname, hlength⟩ := isName_of_isStepKey hkey
    rw [variableReferable_iff_readable hisname hlength]
    constructor
    · intro h
      refine ⟨h.minus, ?_⟩
      rintro rfl
      exact h.allowed (by decide)
    · rintro ⟨hminus, heval⟩
      refine ⟨hminus, ?_, .inr hidentifier, by simp [hindex]⟩
      simp only [forbiddenSegments, variableDangerousKeys, List.mem_cons] at hsafe ⊢
      tauto
  · obtain ⟨hisname, hlength⟩ := isName_of_isStepKey hkey
    rw [stepReferable_iff_readable hisname hlength]
    constructor
    · intro h
      exact ⟨h.minus, h.allowed, h.named, h.index⟩
    · rintro ⟨hminus, hallowed, hnamed, hindex⟩
      exact ⟨hminus, hallowed, hnamed, hindex⟩

/-- The variable `total` can be referenced, and so can the output of the step `fetch_1`. -/
theorem names_referable_iff_of_plain : VariableReferable "total" ∧ StepReferable "fetch_1" := by
  refine ⟨((names_referable_iff "total").1 (by decide)).mpr ?_,
    ((names_referable_iff "fetch_1").2 (by decide)).mpr ?_⟩
  · decide
  · decide

/-- A variable and a step named `my-name` are legal and cannot be referenced. -/
theorem minus_not_referable :
    assertVariableName (.str "my-name") = .ok "my-name" ∧ ¬ VariableReferable "my-name" ∧
      isStepKey "my-name" = true ∧ ¬ StepReferable "my-name" := by
  have hkey : isStepKey "my-name" = true := by decide
  obtain ⟨hname, hlength⟩ := isName_of_isStepKey hkey
  refine ⟨by decide, ?_, hkey, ?_⟩
  · rw [variableReferable_iff_readable hname hlength]
    exact fun h => h.minus (by decide)
  · rw [stepReferable_iff_readable hname hlength]
    exact fun h => h.minus (by decide)

end Flowmind.Expression
