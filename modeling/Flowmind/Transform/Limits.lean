import Flowmind.Sanitize.Sharing
import Flowmind.Transform.Paths

/-!
# Size limits

Values of data stores, variables and outputs of transforms have the same limits.  The size is
limited in bytes, but counted in code units.

* `bounded_of_visit` — the checks of an output look at the same parts as those of a stored value.
* `size_limits` — what is accepted is within the limits on its parts, and in bytes if its text is
  ASCII; other texts may have up to three times the bytes.
* `euros_accepted` — a value of 90,002 bytes that is accepted.
-/

namespace Flowmind.Transform

/-! ## Outputs of transforms

`TRANSFORM_LIMITS`. -/

def maxArrayItems : ℕ := 1000

def maxDepth : ℕ := 12

def maxStringLength : ℕ := 32000

def maxOutputBytes : ℕ := 64000

def maxOperations : ℕ := 10000

/-- The checks of one part of an output. -/
def enter (depth : ℕ) (entry : Json) (operations : ℕ) : Except TransformStepError ℕ :=
  if maxOperations < operations + 1 then .error ⟨.limitExceeded, "Transform operation limit exceeded."⟩
  else if maxDepth < depth then .error ⟨.limitExceeded, "Transform output depth limit exceeded."⟩
  else
    match entry with
    | .str s =>
      if maxStringLength < utf16Length s then
        .error ⟨.limitExceeded, "Transform string length limit exceeded."⟩
      else .ok (operations + 1)
    | .arr items =>
      if maxArrayItems < items.length then
        .error ⟨.limitExceeded, "Transform output array limit exceeded."⟩
      else .ok (operations + 1)
    | _ => .ok (operations + 1)

mutual

/-- The answer is the number of parts that have been looked at. -/
def visit (depth : ℕ) : Json → ℕ → Except TransformStepError ℕ
  | .arr items, operations =>
    (enter depth (.arr items) operations).bind (visitItems (depth + 1) items)
  | .obj fields, operations =>
    (enter depth (.obj fields) operations).bind (visitFields (depth + 1) fields)
  | entry, operations => enter depth entry operations

def visitItems (depth : ℕ) : List Json → ℕ → Except TransformStepError ℕ
  | [], operations => .ok operations
  | item :: items, operations => (visit depth item operations).bind (visitItems depth items)

def visitFields (depth : ℕ) : List (String × Json) → ℕ → Except TransformStepError ℕ
  | [], operations => .ok operations
  | (key, item) :: fields, operations =>
    (assertSafeKey key).bind fun _ =>
      (visit depth item operations).bind (visitFields depth fields)

end

def assertResultLimits (js : JsLib) (value : Json) : Except TransformStepError Unit :=
  (visit 0 value 0).bind fun _ =>
    if maxOutputBytes < utf16Length (value.stringify js) then
      .error ⟨.limitExceeded, "Transform output size limit exceeded."⟩
    else .ok ()

/-- The end of `executeTransform`, with the output as it has been converted. -/
def executeTransform (js : JsLib) (converted : Except TransformStepError Json) :
    Except TransformStepError Json :=
  converted.bind fun output => (assertResultLimits js output).bind fun _ => .ok output

/-! ## What is accepted -/

/-- Every part of a value is within the limits: on its depth, on the length of texts and arrays, and
for keys. -/
def Bounded (parts : List Ref.Part) : Prop := ∀ part ∈ parts, Ref.dataStoreRules.Admits part

lemma admits_of_enter {v : Json} {depth n m : ℕ} (h : enter depth v n = .ok m) :
    Ref.dataStoreRules.Admits (.value depth v) := by
  unfold enter at h
  cases v <;> grind [Ref.Rules.Admits, Ref.dataStoreRules, DataStores.maxDepth, maxDepth,
    DataStores.maxStringLength, maxStringLength, DataStores.maxArrayItems, maxArrayItems]

mutual

lemma bounded_of_visit : ∀ {v : Json} {depth n m : ℕ}, visit depth v n = .ok m →
    Bounded (Ref.parts depth v)
  | .null, _, _, _, h | .bool _, _, _, _, h | .num _, _, _, _, h | .str _, _, _, _, h =>
    List.forall_mem_singleton.mpr (admits_of_enter h)
  | .arr items, _, _, _, h => by
    obtain ⟨_, henter, hitems⟩ := exists_of_bind_eq_ok h
    exact List.forall_mem_cons.mpr ⟨admits_of_enter henter, bounded_of_visitItems hitems⟩
  | .obj fields, _, _, _, h => by
    obtain ⟨_, henter, hfields⟩ := exists_of_bind_eq_ok h
    exact List.forall_mem_cons.mpr ⟨admits_of_enter henter, bounded_of_visitFields hfields⟩

lemma bounded_of_visitItems : ∀ {items : List Json} {depth n m : ℕ},
    visitItems depth items n = .ok m → Bounded (Ref.partsItems depth items)
  | [], _, _, _, _ => nofun
  | item :: items, _, _, _, h => by
    obtain ⟨_, hitem, hitems⟩ := exists_of_bind_eq_ok h
    exact List.forall_mem_append.mpr ⟨bounded_of_visit hitem, bounded_of_visitItems hitems⟩

lemma bounded_of_visitFields : ∀ {fields : List (String × Json)} {depth n m : ℕ},
    visitFields depth fields n = .ok m → Bounded (Ref.partsFields depth fields)
  | [], _, _, _, _ => nofun
  | (key, item) :: fields, _, _, _, h => by
    obtain ⟨_, hkey, h⟩ := exists_of_bind_eq_ok h
    obtain ⟨_, hitem, hfields⟩ := exists_of_bind_eq_ok h
    have hsafe : key ∉ dangerousKeys := by
      intro hmem
      simp [assertSafeKey, isDangerousTransformKey, hmem] at hkey
    exact List.forall_mem_cons.mpr ⟨hsafe,
      List.forall_mem_append.mpr ⟨bounded_of_visit hitem, bounded_of_visitFields hfields⟩⟩

end

/-! ### Bytes and code units -/

/-- All characters of the text are ASCII. -/
def IsAscii (s : String) : Prop := ∀ c ∈ s.toList, c.toNat < 0x80

instance (s : String) : Decidable (IsAscii s) :=
  decidable_of_iff (s.toList.all (fun c => decide (c.toNat < 0x80)) = true) (by simp [IsAscii])

lemma utf8ByteSize_eq_sum (s : String) : s.utf8ByteSize = (s.toList.map Char.utf8Size).sum := by
  nth_rewrite 1 [← String.ofList_toList (s := s)]
  exact utf8ByteSize_ofList _

lemma utf8Size_le (c : Char) : c.utf8Size ≤ 3 * utf16Width c := by
  simp only [Char.utf8Size, utf16Width, Char.toNat, UInt32.le_iff_toNat_le]
  grind

lemma utf8Size_eq {c : Char} (h : c.toNat < 0x80) : c.utf8Size = utf16Width c := by
  simp only [Char.utf8Size, utf16Width, Char.toNat, UInt32.le_iff_toNat_le] at h ⊢
  grind

lemma utf8ByteSize_le (s : String) : s.utf8ByteSize ≤ 3 * utf16Length s := by
  rw [utf8ByteSize_eq_sum, utf16Length]
  induction s.toList with
  | nil => exact Nat.le_refl _
  | cons c cs ih =>
    have hc := utf8Size_le c
    simp only [List.map_cons, List.sum_cons]
    omega

lemma IsAscii.utf8ByteSize_eq {s : String} (h : IsAscii s) : s.utf8ByteSize = utf16Length s := by
  rw [utf8ByteSize_eq_sum, utf16Length]
  exact congrArg _ (List.map_congr_left fun c hc => utf8Size_eq (h c hc))

/-- The value is within the limits, and so is the size of its text in bytes. -/
structure Limited (js : JsLib) (v : Json) : Prop where
  bounded : Bounded (Ref.parts 0 v)
  bytes : v.byteLength js ≤ 64000

/-- The value is within the limits on its parts, and in bytes if its text is ASCII; any other text has
at most three bytes for each unit of the limit. -/
structure LimitedIfAscii (js : JsLib) (v : Json) : Prop where
  bounded : Bounded (Ref.parts 0 v)
  bytes : v.byteLength js ≤ 192000
  ascii : IsAscii (v.stringify js) → Limited js v

variable {js : JsLib} {v : Json}

/-- The length of a text is checked in code units. -/
lemma limitedIfAscii_of_length (hbounded : Bounded (Ref.parts 0 v))
    (hlength : utf16Length (v.stringify js) ≤ 64000) : LimitedIfAscii js v where
  bounded := hbounded
  bytes := (utf8ByteSize_le _).trans (by omega)
  ascii hascii := ⟨hbounded, hascii.utf8ByteSize_eq.trans_le hlength⟩

/-- **Size limits are limits** on depth, texts, arrays and keys of what is accepted, and on the bytes of
what is accepted with an ASCII text. -/
theorem size_limits (js : JsLib) (v : Ref) (label : String)
    (converted : Except TransformStepError Json) :
    ((v.assertDataStoreValue js).isOk = true → LimitedIfAscii js v.tree) ∧
    ((v.assertVariableValue js label).isOk = true → LimitedIfAscii js v.tree) ∧
    ∀ output, executeTransform js converted = .ok output → LimitedIfAscii js output := by
  refine ⟨fun h => ?_, fun h => ?_, fun output h => ?_⟩
  · obtain ⟨-, hadmits, -, hlength⟩ := Ref.isOk_assertSafeJson_iff.mp h
    exact limitedIfAscii_of_length hadmits hlength
  · obtain ⟨-, hadmits, -, hlength⟩ := Ref.isOk_assertSafeJson_iff.mp h
    refine limitedIfAscii_of_length (fun part hpart => ?_) hlength
    have hpart := hadmits part hpart
    cases part with
    | value depth v => cases v <;> exact hpart
    | key name => exact fun hmem => hpart (List.mem_append_left _ hmem)
  · obtain ⟨output', -, h⟩ := exists_of_bind_eq_ok h
    obtain ⟨_, hlimits, h⟩ := exists_of_bind_eq_ok h
    cases h
    obtain ⟨_, hvisit, hlength⟩ := exists_of_bind_eq_ok hlimits
    split_ifs at hlength with htoo
    exact limitedIfAscii_of_length (bounded_of_visit hvisit) (Nat.le_of_not_lt htoo)

/-- An order with two items. -/
def asciiOrder : Ref :=
  .obj 0 [("items", .arr 1 [.obj 2 [("name", .str "tea")], .str "cup"]), ("paid", .bool true)]

/-- It is accepted, and within all limits. -/
theorem size_limits_of_order :
    (asciiOrder.assertDataStoreValue .integers).isOk = true ∧
    (asciiOrder.assertVariableValue .integers "variable").isOk = true ∧
    executeTransform .integers (.ok asciiOrder.tree) = .ok asciiOrder.tree ∧
    Limited .integers asciiOrder.tree := by
  have hstore : (asciiOrder.assertDataStoreValue .integers).isOk = true := by decide +kernel
  refine ⟨hstore, by decide +kernel, by rfl, ?_⟩
  exact ((size_limits .integers asciiOrder "variable" (.ok .null)).1 hstore).ascii (by decide +kernel)

/-- A text of characters of three bytes. -/
def euros (n : ℕ) : String := String.ofList (List.replicate n '€')

lemma utf16Length_euros (n : ℕ) : utf16Length (euros n) = n := by
  rw [euros, utf16Length_ofList, List.map_replicate, List.sum_replicate_nat,
    show utf16Width '€' = 1 from rfl, Nat.mul_one]

lemma utf8ByteSize_euros (n : ℕ) : (euros n).utf8ByteSize = n * 3 := by
  rw [euros, utf8ByteSize_ofList, List.map_replicate, List.sum_replicate_nat,
    show Char.utf8Size '€' = 3 from rfl]

lemma stringify_euros (n : ℕ) :
    (Json.str (euros n)).stringify .integers = "\"" ++ euros n ++ "\"" :=
  quote_of_plain fun _ hc => List.eq_of_mem_replicate hc ▸ rfl

lemma executeTransform_str {s : String} (hlength : utf16Length s ≤ maxStringLength)
    (hsize : utf16Length ((Json.str s).stringify js) ≤ maxOutputBytes) :
    executeTransform js (.ok (.str s)) = .ok (.str s) := by
  have hparts : ¬ maxOperations < 1 ∧ ¬ maxDepth < 0 := by decide
  simp [executeTransform, assertResultLimits, visit, enter, Except.bind, hparts, hlength.not_gt,
    hsize.not_gt]

/-- **A value of 90,002 bytes is accepted.** -/
theorem euros_accepted :
    (Ref.assertDataStoreValue .integers (.str (euros 30000))).isOk = true ∧
    (Ref.assertVariableValue .integers (.str (euros 30000)) "variable").isOk = true ∧
    executeTransform .integers (.ok (.str (euros 30000))) = .ok (.str (euros 30000)) ∧
    ¬Limited .integers (.str (euros 30000)) := by
  have hunits := utf16Length_euros 30000
  have hbytes := utf8ByteSize_euros 30000
  have htext := stringify_euros 30000
  generalize euros 30000 = s at hunits hbytes htext ⊢
  have hsize : utf16Length ((Json.str s).stringify .integers) = 30002 := by
    rw [htext, utf16Length_append, utf16Length_append, hunits,
      show utf16Length "\"" = 1 by decide]
  have haccepted : ∀ rules : Ref.Rules, 30000 ≤ rules.maxStringLength ∧ 1 ≤ rules.maxOperations ∧
      30002 ≤ rules.maxBytes → (Ref.assertSafeJson .integers rules (.str s)).isOk = true := by
    rintro rules ⟨hlength, hoperations, hmax⟩
    exact Ref.isOk_assertSafeJson_iff.mpr ⟨.nil, List.forall_mem_singleton.mpr
      ⟨Nat.zero_le _, hunits.trans_le hlength⟩, hoperations, hsize.trans_le hmax⟩
  refine ⟨haccepted _ (by decide), haccepted _ (by decide), ?_, fun h => ?_⟩
  · exact executeTransform_str (hunits.trans_le (by decide)) (hsize.trans_le (by decide))
  · have hlarge := h.bytes
    rw [Json.byteLength, htext, String.utf8ByteSize_append, String.utf8ByteSize_append] at hlarge
    omega

end Flowmind.Transform
