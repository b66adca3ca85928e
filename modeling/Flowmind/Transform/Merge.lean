import Flowmind.Js.Stringify
import Flowmind.Transform.Paths

/-!
# Merging records

`MERGE` writes the properties of several records, one after the other, into a new one.  A conflict
policy says what happens to a key that is there already.  Whether it is there is asked with the
operator `in`, which also finds what every record inherits, and whether two values differ is asked
of their texts.

* `Merged` — the record that a policy asks for.
* `merge_exact_iff` — the policy is kept exactly when no source has a key that records inherit and,
  under `ERROR`, values that are the same are written alike, unless there is a conflict anyway.
-/

namespace Flowmind.Transform

open Json

/-- The properties of a record: each key once. -/
abbrev Record := {fields : List (String × Json) // (fields.map Prod.fst).Nodup}

inductive ConflictPolicy where
  | lastWins | firstWins | error
deriving DecidableEq, Repr

/-- The keys that every record inherits. -/
def inheritedKeys : List String :=
  ["constructor", "__defineGetter__", "__defineSetter__", "hasOwnProperty", "__lookupGetter__",
    "__lookupSetter__", "isPrototypeOf", "propertyIsEnumerable", "toString", "valueOf", "__proto__",
    "toLocaleString"]

/-- `key in output`. -/
def isIn (key : String) (output : List (String × Json)) : Bool :=
  (output.lookup key).isSome || decide (key ∈ inheritedKeys)

/-- One property of a source.  What is inherited has no text. -/
def mergeEntry (js : JsLib) (policy : ConflictPolicy) (output : List (String × Json))
    (entry : String × Json) : Except TransformStepError (List (String × Json)) := do
  let (key, value) := entry
  assertSafeKey key
  if policy = .error ∧ isIn key output ∧
      (output.lookup key).map (stringify js) ≠ some (stringify js value) then
    .error ⟨.mergeConflict, "MERGE conflict at key \"" ++ key ++ "\"."⟩
  else if policy = .firstWins ∧ isIn key output then .ok output
  else
    let value ← cloneJson value
    .ok (setField key value output)

def mergeSource (js : JsLib) (policy : ConflictPolicy) (output : List (String × Json))
    (source : Record) : Except TransformStepError (List (String × Json)) := do
  assertSafeJsonValue (.obj source.1)
  source.1.foldlM (mergeEntry js policy) output

def mergeObjects (js : JsLib) (policy : ConflictPolicy) (sources : List Record) :
    Except TransformStepError (List (String × Json)) :=
  sources.foldlM (mergeSource js policy) []

/-! ## What is asked for -/

variable (sources : List Record)

/-- The values that the sources have for a key, in their order. -/
def valuesAt (key : String) : List Json :=
  sources.filterMap fun source => source.1.lookup key

/-- Each key of a source is there, with the chosen one of its values, and no other key. -/
structure Merged (choose : List Json → Option Json) (sources : List Record)
    (output : List (String × Json)) : Prop where
  value : ∀ key, output.lookup key = choose (valuesAt sources key)
  keys : ∀ key, key ∈ output.map Prod.fst ↔ ∃ source ∈ sources, key ∈ source.1.map Prod.fst

/-- Two sources give a key different values. -/
def Conflict : Prop :=
  ∃ key, ∃ v ∈ valuesAt sources key, ∃ w ∈ valuesAt sources key, ¬ Same v w

/-- The policy is kept. -/
def KeepsPolicy (result : Except TransformStepError (List (String × Json))) : ConflictPolicy → Prop
  | .lastWins => ∃ output, result = .ok output ∧ Merged List.getLast? sources output
  | .firstWins => ∃ output, result = .ok output ∧ Merged List.head? sources output
  | .error => ((∃ e, result = .error e) ↔ Conflict sources) ∧
      ∀ output, result = .ok output → Merged List.getLast? sources output

/-- No source has a key that every record inherits. -/
def NothingInherited : Prop :=
  ∀ source ∈ sources, ∀ key ∈ source.1.map Prod.fst, key ∉ inheritedKeys

/-- The values of a key are equal, the order of properties included. -/
def WrittenAlike : Prop :=
  ∀ key, ∀ v ∈ valuesAt sources key, ∀ w ∈ valuesAt sources key, v = w

/-- When the policy is kept. -/
def PolicyCondition : ConflictPolicy → Prop
  | .lastWins => True
  | .firstWins => NothingInherited sources
  | .error => Conflict sources ∨ (NothingInherited sources ∧ WrittenAlike sources)

/-! ## The properties of all sources -/

variable {key : String}

section Entries

variable {fields entries : List (String × Json)} {value : Json}

/-- The values of a key in a list of properties. -/
def valuesIn (entries : List (String × Json)) (key : String) : List Json :=
  entries.filterMap fun entry => if entry.1 = key then some entry.2 else none

lemma lookup_isSome_iff : (fields.lookup key).isSome ↔ key ∈ fields.map Prod.fst := by
  simp

/-- A record has at most one value for a key. -/
lemma valuesIn_record (h : (fields.map Prod.fst).Nodup) :
    valuesIn fields key = (fields.lookup key).toList := by
  induction fields with
  | nil => rfl
  | cons entry fields ih =>
    obtain ⟨k, x⟩ := entry
    rw [List.map_cons, List.nodup_cons] at h
    have htail := ih h.2
    simp only [valuesIn] at htail
    by_cases hk : k = key
    · subst hk
      have hnone : fields.lookup k = none := by
        rw [← Option.not_isSome_iff_eq_none, lookup_isSome_iff]
        exact h.1
      simp [valuesIn, htail, hnone]
    · simp [valuesIn, htail, hk, lookup_cons_ite, Ne.symm hk]

lemma valuesIn_flatMap (sources : List Record) (key : String) :
    valuesIn (sources.flatMap Subtype.val) key = valuesAt sources key := by
  induction sources with
  | nil => rfl
  | cons source sources ih =>
    have hsplit : valuesIn ((source :: sources).flatMap Subtype.val) key =
        valuesIn source.1 key ++ valuesIn (sources.flatMap Subtype.val) key := by
      simp [valuesIn]
    rw [hsplit, valuesIn_record source.2, ih, valuesAt, valuesAt, List.filterMap_cons]
    cases source.1.lookup key <;> rfl

lemma mem_valuesIn : value ∈ valuesIn entries key ↔ (key, value) ∈ entries := by
  simp [valuesIn]

/-- A property that may be written. -/
def Allowed (entry : String × Json) : Prop :=
  assertSafeKey entry.1 = .ok () ∧ assertSafeJsonValue entry.2 = .ok ()

lemma allowed_of_safe (h : assertSafeFields fields = .ok ()) : ∀ entry ∈ fields, Allowed entry := by
  induction fields with
  | nil => simp
  | cons entry fields ih =>
    cases hkey : assertSafeKey entry.1 <;> cases hvalue : assertSafeJsonValue entry.2 <;>
      simp [assertSafeFields, hkey, hvalue, bind, Except.bind] at h
    exact List.forall_mem_cons.mpr ⟨⟨hkey, hvalue⟩, ih h⟩

/-- The sources are merged property by property. -/
lemma mergeObjects_eq {js : JsLib} {policy : ConflictPolicy} {sources : List Record}
    (hsafe : ∀ source ∈ sources, assertSafeJsonValue (.obj source.1) = .ok ()) :
    mergeObjects js policy sources =
      (sources.flatMap Subtype.val).foldlM (mergeEntry js policy) [] := by
  have hfold : ∀ start, sources.foldlM (mergeSource js policy) start =
      (sources.flatMap Subtype.val).foldlM (mergeEntry js policy) start := by
    induction sources with
    | nil => intro start; rfl
    | cons source sources ih =>
      intro start
      have hrest := ih fun other hother => hsafe other (by simp [hother])
      simp only [List.foldlM_cons, List.flatMap_cons, List.foldlM_append, mergeSource,
        hsafe source (by simp)]
      simp only [bind, Except.bind, hrest]
  exact hfold []

end Entries

/-! ## One policy after the other -/

variable {js : JsLib}

section Policies

variable {entries start : List (String × Json)}

lemma lookup_spread_eq (key : String) :
    (spread start entries).lookup key =
      (valuesIn entries key).getLast?.or (start.lookup key) := by
  induction entries using List.reverseRecOn with
  | nil => simp [spread, valuesIn]
  | append_singleton entries entry ih =>
    rw [spread_concat, lookup_setField, ih]
    by_cases h : key = entry.1
    · simp [valuesIn, h]
    · simp [valuesIn, h, Ne.symm h]

lemma foldlM_lastWins (hallowed : ∀ entry ∈ entries, Allowed entry) :
    entries.foldlM (mergeEntry js .lastWins) start = .ok (spread start entries) := by
  induction entries generalizing start with
  | nil => rfl
  | cons entry entries ih =>
    have hentry := hallowed entry (by simp)
    have hstep : mergeEntry js .lastWins start entry = .ok (setField entry.1 entry.2 start) := by
      simp [mergeEntry, hentry.1, cloneJson, hentry.2, bind, Except.bind]
    rw [List.foldlM_cons, hstep]
    exact ih fun other hother => hallowed other (by simp [hother])

/-- The first value is kept, and what is inherited is never written. -/
lemma foldlM_firstWins (hallowed : ∀ entry ∈ entries, Allowed entry) :
    ∃ output, entries.foldlM (mergeEntry js .firstWins) start = .ok output ∧
      ∀ key, output.lookup key = (start.lookup key).or
        (if key ∈ inheritedKeys then none else (valuesIn entries key).head?) := by
  induction entries generalizing start with
  | nil => exact ⟨start, rfl, by simp [valuesIn]⟩
  | cons entry entries ih =>
    have hentry := hallowed entry (by simp)
    have hrest := fun start => @ih start fun other hother => hallowed other (by simp [hother])
    by_cases hin : isIn entry.1 start = true
    · have hstep : mergeEntry js .firstWins start entry = .ok start := by
        simp [mergeEntry, hentry.1, hin, bind, Except.bind]
      obtain ⟨output, houtput, hlookup⟩ := hrest start
      refine ⟨output, by rw [List.foldlM_cons, hstep]; exact houtput, fun key => ?_⟩
      rw [hlookup]
      by_cases hkey : entry.1 = key
      · subst hkey
        rcases Bool.or_eq_true_iff.mp hin with hown | hinherited
        · obtain ⟨v, hv⟩ := Option.isSome_iff_exists.mp hown
          simp [hv]
        · simp [of_decide_eq_true hinherited]
      · simp [valuesIn, hkey]
    · have hstep : mergeEntry js .firstWins start entry = .ok (setField entry.1 entry.2 start) := by
        simp [mergeEntry, hentry.1, hin, cloneJson, hentry.2, bind, Except.bind]
      obtain ⟨output, houtput, hlookup⟩ := hrest (setField entry.1 entry.2 start)
      refine ⟨output, by rw [List.foldlM_cons, hstep]; exact houtput, fun key => ?_⟩
      rw [hlookup, lookup_setField]
      by_cases hkey : key = entry.1
      · subst hkey
        simp only [isIn, Bool.or_eq_true, decide_eq_true_eq, not_or, Option.not_isSome_iff_eq_none]
          at hin
        simp [hin.1, hin.2, valuesIn]
      · simp [valuesIn, hkey, Ne.symm hkey]

/-- One property under `ERROR`. -/
lemma mergeEntry_error_ok_iff (hjs : js.Faithful) {entry : String × Json} (hentry : Allowed entry)
    {output : List (String × Json)} :
    mergeEntry js .error start entry = .ok output ↔
      (start.lookup entry.1 = none → entry.1 ∉ inheritedKeys) ∧
        (∀ v, start.lookup entry.1 = some v → v = entry.2) ∧
        output = setField entry.1 entry.2 start := by
  have htext : ∀ v, stringify js v = stringify js entry.2 ↔ v = entry.2 :=
    fun v => (stringify_injective hjs).eq_iff
  cases hlookup : start.lookup entry.1 with
  | none =>
    by_cases hinherited : entry.1 ∈ inheritedKeys <;>
      simp [mergeEntry, hentry.1, isIn, hlookup, hinherited, cloneJson, hentry.2, bind, Except.bind,
        eq_comm]
  | some v =>
    by_cases hv : v = entry.2 <;>
      simp [mergeEntry, hentry.1, isIn, hlookup, htext, hv, cloneJson, hentry.2, bind, Except.bind,
        eq_comm]

/-- All values of a key are one. -/
def Agreeing (entries : List (String × Json)) : Prop :=
  ∀ key, ∀ v ∈ valuesIn entries key, ∀ w ∈ valuesIn entries key, v = w

lemma agreeing_concat {entry : String × Json} : Agreeing (entries ++ [entry]) ↔
    Agreeing entries ∧ ∀ v ∈ valuesIn entries entry.1, v = entry.2 := by
  simp only [Agreeing, mem_valuesIn, List.mem_append, List.mem_singleton]
  constructor
  · intro h
    exact ⟨fun key v hv w hw => h key v (.inl hv) w (.inl hw),
      fun v hv => h entry.1 v (.inl hv) entry.2 (.inr rfl)⟩
  · rintro ⟨hold, hnew⟩ key v hv w hw
    rcases hv with hv | rfl <;> rcases hw with hw | hw
    · exact hold key v hv w hw
    · subst hw
      exact hnew v hv
    · exact (hnew w hw).symm
    · rw [Prod.mk.injEq] at hw
      exact hw.2.symm

lemma foldlM_error_ok_iff (hjs : js.Faithful) (hallowed : ∀ entry ∈ entries, Allowed entry)
    {output : List (String × Json)} :
    entries.foldlM (mergeEntry js .error) [] = .ok output ↔
      (∀ entry ∈ entries, entry.1 ∉ inheritedKeys) ∧ Agreeing entries ∧
        output = spread [] entries := by
  induction entries using List.reverseRecOn generalizing output with
  | nil => simp [pure, Except.pure, Agreeing, valuesIn, spread]
  | append_singleton entries entry ih =>
    have hentry := hallowed entry (by simp)
    have hold := @ih fun other hother => hallowed other (by simp [hother])
    have hlookup := @lookup_spread_eq entries [] entry.1
    rw [List.foldlM_append, agreeing_concat, spread_concat]
    cases hfold : entries.foldlM (mergeEntry js .error) [] with
    | error e =>
      simp only [hfold, reduceCtorEq, false_iff, not_and] at hold
      simp only [bind, Except.bind, reduceCtorEq, false_iff, not_and]
      intro hplain hagreeing
      exact absurd rfl (hold (fun other hother => hplain other (by simp [hother])) hagreeing.1)
    | ok middle =>
      obtain ⟨hplain, hagreeing, rfl⟩ := hold.mp hfold
      have hstep := @mergeEntry_error_ok_iff js (spread [] entries) hjs entry hentry output
      simp only [hlookup] at hstep
      simp only [bind, Except.bind]
      have hsame : (∀ v, (valuesIn entries entry.1).getLast? = some v → v = entry.2) ↔
          ∀ v ∈ valuesIn entries entry.1, v = entry.2 := by
        constructor
        · intro h v hv
          have hne : valuesIn entries entry.1 ≠ [] := List.ne_nil_of_mem hv
          have hlast := List.getLast?_eq_some_getLast hne
          rw [hagreeing entry.1 v hv _ (List.getLast_mem hne)]
          exact h _ hlast
        · intro h v hv
          exact h v (List.mem_of_getLast? hv)
      have hkey : ((valuesIn entries entry.1).getLast? = none → entry.1 ∉ inheritedKeys) ↔
          ∀ other ∈ entries ++ [entry], other.1 ∉ inheritedKeys := by
        constructor
        · intro h other hother
          rcases List.mem_append.mp hother with hother | hother
          · exact hplain other hother
          · obtain rfl := List.mem_singleton.mp hother
            by_cases hnil : valuesIn entries other.1 = []
            · exact h (by simp [hnil])
            · obtain ⟨v, hv⟩ := List.exists_mem_of_ne_nil _ hnil
              exact hplain (other.1, v) (mem_valuesIn.mp hv)
        · exact fun h _ => h entry (by simp)
      rw [← hkey, ← hsame]
      simp only [hagreeing]
      cases hresult : mergeEntry js .error (spread [] entries) entry with
      | error e => simpa using hstep
      | ok result => simpa using hstep

end Policies

/-! ## All policies -/

section Merge

variable {sources : List Record} {output : List (String × Json)}

lemma mem_keys_iff : valuesAt sources key ≠ [] ↔
    ∃ source ∈ sources, key ∈ source.1.map Prod.fst := by
  simp [valuesAt]

/-- The keys are those with a value. -/
lemma merged_of_value {choose : List Json → Option Json}
    (hchoose : ∀ l, choose l = none ↔ l = [])
    (hvalue : ∀ key, output.lookup key = choose (valuesAt sources key)) :
    Merged choose sources output := by
  refine ⟨hvalue, fun key => ?_⟩
  rw [← lookup_isSome_iff, ← mem_keys_iff, hvalue, Option.isSome_iff_ne_none, Ne, hchoose]

lemma merged_lastWins (sources : List Record) :
    Merged List.getLast? sources (spread [] (sources.flatMap Subtype.val)) := by
  refine merged_of_value (fun l => by simp) fun key => ?_
  rw [lookup_spread_eq, valuesIn_flatMap]
  simp

lemma nothingInherited_iff : NothingInherited sources ↔
    ∀ entry ∈ sources.flatMap Subtype.val, entry.1 ∉ inheritedKeys := by
  simp only [NothingInherited, List.mem_flatMap, List.mem_map]
  constructor
  · rintro h entry ⟨source, hsource, hentry⟩
    exact h source hsource entry.1 ⟨entry, hentry, rfl⟩
  · rintro h source hsource key ⟨entry, hentry, rfl⟩
    exact h entry ⟨source, hsource, hentry⟩

/-- The sources have no key that is not allowed, at any depth. -/
def AllSafe (sources : List Record) : Prop :=
  ∀ source ∈ sources, assertSafeJsonValue (.obj source.1) = .ok ()

lemma AllSafe.allowed (h : AllSafe sources) : ∀ entry ∈ sources.flatMap Subtype.val, Allowed entry := by
  intro entry hentry
  obtain ⟨source, hsource, hmem⟩ := List.mem_flatMap.mp hentry
  have hfields : assertSafeFields source.1 = .ok () := by
    simpa [assertSafeJsonValue] using h source hsource
  exact allowed_of_safe hfields entry hmem

lemma keepsPolicy_lastWins (hsafe : AllSafe sources) :
    KeepsPolicy sources (mergeObjects js .lastWins sources) .lastWins := by
  refine ⟨_, (mergeObjects_eq hsafe).trans (foldlM_lastWins hsafe.allowed),
    merged_lastWins sources⟩

lemma keepsPolicy_firstWins (hsafe : AllSafe sources) :
    KeepsPolicy sources (mergeObjects js .firstWins sources) .firstWins ↔
      NothingInherited sources := by
  obtain ⟨output, houtput, hlookup⟩ := @foldlM_firstWins js _ [] hsafe.allowed
  simp only [valuesIn_flatMap] at hlookup
  have hresult := (@mergeObjects_eq js .firstWins sources hsafe).trans houtput
  constructor
  · rintro ⟨output', houtput', hmerged⟩ source hsource key hkey hinherited
    obtain rfl : output = output' := by simpa [hresult] using houtput'
    have hmem := (hmerged.keys key).mpr ⟨source, hsource, hkey⟩
    rw [← lookup_isSome_iff, hlookup, if_pos hinherited] at hmem
    simp at hmem
  · intro hplain
    refine ⟨output, hresult, merged_of_value (fun l => by simp) fun key => ?_⟩
    rw [hlookup]
    split
    · rename_i hinherited
      have hnil : valuesAt sources key = [] := by
        by_contra hne
        obtain ⟨source, hsource, hkey⟩ := mem_keys_iff.mp hne
        exact hplain source hsource key hkey hinherited
      simp [hnil]
    · rfl

lemma mergeObjects_error_ok_iff (hjs : js.Faithful) (hsafe : AllSafe sources) :
    mergeObjects js .error sources = .ok output ↔ NothingInherited sources ∧ WrittenAlike sources ∧
      output = spread [] (sources.flatMap Subtype.val) := by
  rw [mergeObjects_eq hsafe, foldlM_error_ok_iff hjs hsafe.allowed, nothingInherited_iff]
  simp only [Agreeing, WrittenAlike, valuesIn_flatMap]

lemma keepsPolicy_error (hjs : js.Faithful) (hsafe : AllSafe sources) :
    KeepsPolicy sources (mergeObjects js .error sources) .error ↔
      PolicyCondition sources .error := by
  have hok := fun output => @mergeObjects_error_ok_iff js sources output hjs hsafe
  have hmerged : ∀ output, mergeObjects js .error sources = .ok output →
      Merged List.getLast? sources output := by
    intro output houtput
    obtain ⟨-, -, rfl⟩ := (hok output).mp houtput
    exact merged_lastWins sources
  have hfails : (∃ e, mergeObjects js .error sources = .error e) ↔
      ¬ (NothingInherited sources ∧ WrittenAlike sources) := by
    cases hresult : mergeObjects js .error sources with
    | error e =>
      refine iff_of_true ⟨e, rfl⟩ fun hgood => ?_
      have hdone := (hok _).mpr ⟨hgood.1, hgood.2, rfl⟩
      simp [hresult] at hdone
    | ok output =>
      obtain ⟨hplain, halike, -⟩ := (hok output).mp hresult
      simp [hplain, halike]
  have hconflict : Conflict sources → ¬ WrittenAlike sources := by
    rintro ⟨key, v, hv, w, hw, hdiffer⟩ halike
    exact hdiffer (halike key v hv w hw ▸ .refl v)
  simp only [KeepsPolicy, PolicyCondition]
  tauto

end Merge

/-- **MERGE keeps its policy** exactly when no key of a source is one that records inherit (under
`FIRST_WINS` and `ERROR`) and values that are the same are written alike (under `ERROR`), unless
there is a conflict anyway. -/
theorem merge_exact_iff {js : JsLib} (hjs : js.Faithful) (policy : ConflictPolicy)
    {sources : List Record} (hsafe : AllSafe sources) :
    KeepsPolicy sources (mergeObjects js policy sources) policy ↔ PolicyCondition sources policy := by
  cases policy with
  | lastWins => exact iff_of_true (keepsPolicy_lastWins hsafe) trivial
  | firstWins => exact keepsPolicy_firstWins hsafe
  | error => exact keepsPolicy_error hjs hsafe

/-- Two records with different values for a key. -/
def differingSources : List Record :=
  [⟨[("a", .num 1)], by simp⟩, ⟨[("a", .num 2), ("b", .null)], by simp⟩]

theorem merge_exact_of_differing :
    mergeObjects .tally .firstWins differingSources = .ok [("a", .num 1), ("b", .null)] ∧
      KeepsPolicy differingSources (mergeObjects .tally .firstWins differingSources) .firstWins := by
  have hsafe : AllSafe differingSources := by
    simp [differingSources, AllSafe, assertSafeJsonValue, assertSafeFields, assertSafeKey,
      isDangerousTransformKey, dangerousKeys, bind, Except.bind]
  refine ⟨rfl, (merge_exact_iff JsLib.faithful_tally .firstWins hsafe).mpr ?_⟩
  simp only [PolicyCondition, NothingInherited, inheritedKeys, differingSources, List.forall_mem_cons]
  simp

/-- A key that is inherited is lost under `FIRST_WINS` and a conflict under `ERROR`, and so are
values that differ in the order of their properties only. -/
theorem merge_breaks_policy :
    mergeObjects .tally .firstWins [⟨[("toString", .num 1)], by simp⟩, ⟨[], by simp⟩] = .ok [] ∧
      mergeObjects .tally .error [⟨[("toString", .num 1)], by simp⟩, ⟨[], by simp⟩] =
        .error ⟨.mergeConflict, "MERGE conflict at key \"toString\"."⟩ ∧
      mergeObjects .tally .error [⟨[("a", .obj [("x", .null), ("y", .null)])], by simp⟩,
        ⟨[("a", .obj [("y", .null), ("x", .null)])], by simp⟩] =
        .error ⟨.mergeConflict, "MERGE conflict at key \"a\"."⟩ ∧
      Same (.obj [("x", .null), ("y", .null)]) (.obj [("y", .null), ("x", .null)]) := by
  refine ⟨rfl, rfl, rfl, same_obj_iff.mpr fun name => ?_⟩
  by_cases hx : name = "x"
  · subst hx
    exact rel_same_refl (some .null)
  · have horder : List.lookup name [("x", Json.null), ("y", .null)] =
        List.lookup name [("y", .null), ("x", .null)] := by
      simp [lookup_cons_ite, hx]
    rw [horder]
    exact rel_same_refl _

end Flowmind.Transform
