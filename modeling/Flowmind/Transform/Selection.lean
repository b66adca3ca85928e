import Flowmind.Transform.Paths

/-!
# Picking and omitting paths

`PICK` copies the listed paths of a record one after the other into a new record; `OMIT` deletes
them from a copy.  Reading goes through arrays, writing and deleting do not.

* `pick_exact_iff` — what is picked is exactly what was asked, in any order of the paths, exactly
  when a listed path below another one is reached from it through records only.
* `omit_exact_iff` — what is omitted is exactly what was asked exactly when every listed path that
  can be read begins with a listed one that is reached through records only.
-/

namespace Flowmind.Transform

open Json

/-! ## PICK -/

/-- Copy one path, if it can be read. -/
def pickPath (source output : Json) (path : String) : Except TransformStepError Json :=
  match readPath source path with
  | some value => do
    let value ← cloneJson value
    .ok (setPath output path value)
  | none => .ok output

def pickPaths (source : Json) (paths : List String) : Except TransformStepError Json := do
  let paths ← uniqueSafePaths paths
  paths.foldlM (pickPath source) (.obj [])

/-- What is asked for: each listed path is read as in the source, if at all, and the order of the
paths does not matter. -/
structure Picks (source : Json) (paths : List String) (output : Json) : Prop where
  found : ∀ path ∈ paths, ∀ v, readPath source path = some v → readPath output path = some v
  missing : ∀ path ∈ paths, readPath source path = none → readPath output path = none
  order : ∀ paths', paths'.Perm paths →
    ∃ output', pickPaths source paths' = .ok output' ∧ Same output' output

/-- A path and the value that is written there. -/
abbrev Write := List String × Json

/-- The writes for some paths. -/
def writes (source : Json) (paths : List String) : List Write :=
  paths.filterMap fun path => (readPath source path).map fun v => (segments path, v)

/-- One write after another. -/
def writeAll (output : Json) (l : List Write) : Json :=
  l.foldl (fun output x => put x.2 x.1 (some output)) output

variable {source output : Json} {paths : List String}

section Pick

variable {l : List Write} {x y : Write}

lemma mem_writes : x ∈ writes source paths ↔
    ∃ path ∈ paths, segments path = x.1 ∧ readPath source path = some x.2 := by
  obtain ⟨p, v⟩ := x
  simp only [writes, List.mem_filterMap, Option.map_eq_some_iff, Prod.mk.injEq]
  constructor
  · rintro ⟨path, hpath, w, hread, hp, rfl⟩
    exact ⟨path, hpath, hp, hread⟩
  · rintro ⟨path, hpath, hp, hread⟩
    exact ⟨path, hpath, v, hread, hp, rfl⟩

lemma readSegments_of_mem_writes (h : x ∈ writes source paths) :
    readSegments source x.1 = some x.2 := by
  obtain ⟨path, -, hp, hread⟩ := mem_writes.mp h
  rw [← hp]
  exact hread

lemma foldlM_pickPath_ok_iff {start : Json} :
    paths.foldlM (pickPath source) start = .ok output ↔
      (∀ x ∈ writes source paths, assertSafeJsonValue x.2 = .ok ()) ∧
        output = writeAll start (writes source paths) := by
  induction paths generalizing start with
  | nil => simp [writes, writeAll, pure, Except.pure, eq_comm]
  | cons path paths ih =>
    simp only [List.foldlM_cons]
    cases hread : readPath source path with
    | none =>
      simp only [pickPath, hread, bind, Except.bind, ih]
      simp [writes, hread]
    | some v =>
      cases hsafe : assertSafeJsonValue v with
      | error e => simp [pickPath, hread, cloneJson, hsafe, bind, Except.bind, writes]
      | ok _ =>
        simp only [pickPath, hread, cloneJson, hsafe, bind, Except.bind, ih]
        simp [writes, hread, hsafe, writeAll, setPath]

lemma pickPaths_ok_iff (hvalid : validatePaths (pathList paths) = []) :
    pickPaths source paths = .ok output ↔
      (∀ x ∈ writes source paths, assertSafeJsonValue x.2 = .ok ()) ∧
        output = writeAll (.obj []) (writes source paths) := by
  rw [pickPaths, uniqueSafePaths_of_valid hvalid]
  exact foldlM_pickPath_ok_iff

lemma valid_of_perm {paths' : List String} (hperm : paths'.Perm paths)
    (hvalid : validatePaths (pathList paths) = []) : validatePaths (pathList paths') = [] := by
  rw [validatePaths_eq_nil_iff] at hvalid ⊢
  obtain ⟨hne, hlength, hsafe, hnodup⟩ := hvalid
  refine ⟨fun hnil => hne ?_, hperm.length_eq ▸ hlength,
    fun path hpath => hsafe path (hperm.mem_iff.mp hpath), hperm.nodup_iff.mpr hnodup⟩
  rw [hnil] at hperm
  exact hperm.nil_eq.symm

/-- What the second write puts below the first one is there already. -/
def Compatible (x y : Write) : Prop := ∀ r, y.1 = x.1 ++ r → ownSegments x.2 r = some y.2

lemma writeAll_comm (hxy : Compatible x y) (hyx : Compatible y x) (output : Json) :
    Same (writeAll output [x, y]) (writeAll output [y, x]) := by
  obtain ⟨p, v⟩ := x
  obtain ⟨q, w⟩ := y
  simp only [writeAll, List.foldl_cons]
  by_cases hpq : p <+: q
  · obtain ⟨r, rfl⟩ := hpq
    rw [put_append_put, put_own (hxy r rfl), put_put_append]
  · by_cases hqp : q <+: p
    · obtain ⟨r, rfl⟩ := hqp
      rw [put_append_put, put_own (hyx r rfl), put_put_append]
    · exact (put_comm ⟨hpq, hqp⟩ (some output)).symm

/-- The order of compatible writes does not matter. -/
lemma writeAll_perm {l' : List Write} (hperm : l.Perm l')
    (hcompatible : ∀ x ∈ l, ∀ y ∈ l, Compatible x y) (output : Json) :
    Same (writeAll output l) (writeAll output l') :=
  Same.foldl_perm (fun x _ _ h => put_congr (.some h) x.1) hperm
    (fun x hx y hy a => writeAll_comm (hcompatible x hx y hy) (hcompatible y hy x hx) a)
    (.refl output)

/-- After compatible writes each of them is found. -/
lemma ownSegments_writeAll (hcompatible : ∀ x ∈ l, ∀ y ∈ l, Compatible x y) (start : Json) :
    ∀ x ∈ l, ownSegments (writeAll start l) x.1 = some x.2 := by
  induction l using List.reverseRecOn with
  | nil => simp
  | append_singleton l y ih =>
    have hold := ih fun x hx z hz => hcompatible x (by simp [hx]) z (by simp [hz])
    have hlast : writeAll start (l ++ [y]) = put y.2 y.1 (some (writeAll start l)) := by
      simp [writeAll]
    intro x hx
    rw [hlast]
    by_cases hyx : y.1 <+: x.1
    · -- The last write is above this one, or is this one.
      obtain ⟨r, hr⟩ := hyx
      rw [← hr, ownSegments, walkBy_put_append follows_get?]
      exact hcompatible y (by simp) x hx r hr.symm
    · have hmem : x ∈ l := by
        rcases List.mem_append.mp hx with hx | hx
        · exact hx
        · exact absurd (by simp [List.mem_singleton.mp hx]) hyx
      by_cases hxy : x.1 <+: y.1
      · -- It is below this one and writes what is there.
        obtain ⟨r, hr⟩ := hxy
        have hthere := put_own (hold x hmem)
        rw [← hr, ← hthere, put_append_put, put_own (hcompatible x hx y (by simp) r hr.symm),
          hthere, hold x hmem]
      · rw [ownSegments_put ⟨hyx, hxy⟩]
        exact hold x hmem

/-- What can be read after some writes from a source could be read there. -/
lemma isSome_of_readSegments_writeAll (hl : ∀ x ∈ l, readSegments source x.1 = some x.2)
    {p : List String} (h : (readSegments (writeAll (.obj []) l) p).isSome) :
    (readSegments source p).isSome := by
  induction l using List.reverseRecOn with
  | nil =>
    cases p with
    | nil => rfl
    | cons segment p => simp [writeAll, readSegments, walkBy, follow] at h
  | append_singleton l y ih =>
    have hlast : writeAll (.obj []) (l ++ [y]) = put y.2 y.1 (some (writeAll (.obj []) l)) := by
      simp [writeAll]
    have hy := hl y (by simp)
    rw [hlast] at h
    by_cases hyp : y.1 <+: p
    · obtain ⟨r, rfl⟩ := hyp
      rw [readSegments, walkBy_put_append follows_follow, ← readSegments] at h
      simpa [readSegments_append, hy] using h
    · by_cases hpy : p <+: y.1
      · obtain ⟨r, hr⟩ := hpy
        refine isSome_walkBy_of_append (r := r) ?_
        rw [hr, ← readSegments, hy]
        rfl
      · obtain ⟨v, hv, hread⟩ := isSome_of_readSegments_put ⟨hyp, hpy⟩ h
        cases hv
        exact ih (fun x hx => hl x (by simp [hx])) hread

/-- A listed path below another one is reached from it through records only. -/
def NoArrayBetween (source : Json) (paths : List String) : Prop :=
  ∀ path ∈ paths, ∀ inner ∈ paths, ∀ rest v, segments inner = segments path ++ rest →
    readPath source path = some v → (readSegments v rest).isSome → (ownSegments v rest).isSome

lemma NoArrayBetween.compatible (h : NoArrayBetween source paths) :
    ∀ x ∈ writes source paths, ∀ y ∈ writes source paths, Compatible x y := by
  intro x hx y hy r hr
  obtain ⟨path, hpath, hp, hread⟩ := mem_writes.mp hx
  obtain ⟨inner, hinner, hq, -⟩ := mem_writes.mp hy
  have hy' := readSegments_of_mem_writes hy
  have hbelow : readSegments x.2 r = some y.2 := by
    simpa [hr, readSegments_append, readSegments_of_mem_writes hx] using hy'
  have hown := h path hpath inner hinner r x.2 (by rw [hq, hp, hr]) hread (by simp [hbelow])
  obtain ⟨w, hw⟩ := Option.isSome_iff_exists.mp hown
  have hsame := (readSegments_of_own hw).symm.trans hbelow
  rw [hw, hsame]

/-- Where the order of the paths does not matter, no array is between two of them: the one written
last would be the only one to come out right. -/
lemma noArrayBetween_of_order (hvalid : validatePaths (pathList paths) = [])
    (hpicks : Picks source paths output) : NoArrayBetween source paths := by
  intro path hpath inner hinner rest v hsegments hread hbelow
  by_cases hne : path = inner
  · have hnil : rest = [] := by simpa [hne] using hsegments
    simp [hnil, ownSegments, walkBy]
  obtain ⟨w, hw⟩ := Option.isSome_iff_exists.mp hbelow
  have hinnerRead : readPath source inner = some w := by
    simp only [readPath] at hread
    simp [readPath, hsegments, readSegments_append, hread, hw]
  -- Both paths last, in either order.
  have hmem : inner ∈ paths.erase path := (List.mem_erase_of_ne (Ne.symm hne)).mpr hinner
  have hperm : paths.Perm (((paths.erase path).erase inner) ++ [path, inner]) :=
    (List.perm_cons_erase hpath).trans
      (((List.perm_cons_erase hmem).cons path).trans (@List.perm_append_comm _ [path, inner] _))
  have hperm' := hperm.trans ((List.Perm.swap inner path []).append_left _)
  obtain ⟨first, hfirst, hsame⟩ := hpicks.order _ hperm.symm
  obtain ⟨second, hsecond, hsame'⟩ := hpicks.order _ hperm'.symm
  obtain ⟨-, rfl⟩ := (pickPaths_ok_iff (valid_of_perm hperm.symm hvalid)).mp hfirst
  obtain ⟨-, rfl⟩ := (pickPaths_ok_iff (valid_of_perm hperm'.symm hvalid)).mp hsecond
  have hboth := hsame.trans hsame'.symm
  simp only [writes, List.filterMap_append, List.filterMap_cons, List.filterMap_nil, hread,
    hinnerRead, Option.map_some, writeAll, List.foldl_append, List.foldl_cons, List.foldl_nil,
    hsegments, put_append_put] at hboth
  have hat := rel_walkBy follows_follow hboth (segments path ++ [])
  rw [walkBy_put_append follows_follow, walkBy_put_append follows_follow] at hat
  cases hat with
  | some hvalues =>
    have hown := isSome_eq_of_rel (rel_walkBy follows_get? hvalues (rest ++ []))
    rw [walkBy_put_append follows_get?, List.append_nil] at hown
    exact hown.symm

end Pick

/-- **PICK selects exactly what was asked** exactly when no array lies between two listed paths of
which one begins with the other. -/
theorem pick_exact_iff {fields : List (String × Json)} {paths : List String} {output : Json}
    (hvalid : validatePaths (pathList paths) = [])
    (hpick : pickPaths (.obj fields) paths = .ok output) :
    Picks (.obj fields) paths output ↔ NoArrayBetween (.obj fields) paths := by
  refine ⟨noArrayBetween_of_order hvalid, fun h => ?_⟩
  obtain ⟨hsafe, rfl⟩ := (pickPaths_ok_iff hvalid).mp hpick
  refine ⟨fun path hpath v hread => ?_, fun path hpath hread => ?_, fun paths' hperm => ?_⟩
  · have hmem : (segments path, v) ∈ writes (.obj fields) paths :=
      mem_writes.mpr ⟨path, hpath, rfl, hread⟩
    exact readSegments_of_own (ownSegments_writeAll h.compatible _ _ hmem)
  · rw [← Option.not_isSome_iff_eq_none] at hread ⊢
    exact fun hsome => hread
      (isSome_of_readSegments_writeAll (fun x hx => readSegments_of_mem_writes hx) hsome)
  · have hwrites : (writes (.obj fields) paths').Perm (writes (.obj fields) paths) :=
      hperm.filterMap _
    refine ⟨_, (pickPaths_ok_iff (valid_of_perm hperm hvalid)).mpr
      ⟨fun x hx => hsafe x (hwrites.mem_iff.mp hx), rfl⟩, ?_⟩
    exact (writeAll_perm hwrites.symm h.compatible _).symm

/-- A record and two paths of which one is below the other. -/
theorem pick_exact_of_records :
    validatePaths (pathList ["a", "a.b"]) = [] ∧
      Picks (.obj [("a", .obj [("b", .num 1)])]) ["a", "a.b"]
        (.obj [("a", .obj [("b", .num 1)])]) := by
  have hvalid : validatePaths (pathList ["a", "a.b"]) = [] := by decide
  have houter : segments "a" = ["a"] := by decide
  have hinner : segments "a.b" = ["a", "b"] := by decide
  refine ⟨hvalid, (pick_exact_iff hvalid rfl).mpr ?_⟩
  intro path hpath inner hinner' rest v hsegments hread hbelow
  simp only [List.mem_cons, List.not_mem_nil, or_false] at hpath hinner'
  rcases hpath with rfl | rfl <;> rcases hinner' with rfl | rfl <;>
    simp [houter, hinner] at hsegments
  · simp [hsegments, ownSegments, walkBy]
  · obtain rfl : Json.obj [("b", .num 1)] = v := Option.some.inj hread
    simp [← hsegments, ownSegments, walkBy, Json.get?]
  · simp [hsegments, ownSegments, walkBy]

/-- An array and an item of it: after the item is written, the array is gone. -/
theorem pick_replaces_array :
    validatePaths (pathList ["a", "a.0"]) = [] ∧
      pickPaths (.obj [("a", .arr [.num 1])]) ["a", "a.0"] =
        .ok (.obj [("a", .obj [("0", .num 1)])]) ∧
      pickPaths (.obj [("a", .arr [.num 1])]) ["a.0", "a"] = .ok (.obj [("a", .arr [.num 1])]) ∧
      readPath (.obj [("a", .arr [.num 1])]) "a" = some (.arr [.num 1]) ∧
      readPath (.obj [("a", .obj [("0", .num 1)])]) "a" = some (.obj [("0", .num 1)]) :=
  ⟨by decide, rfl, rfl, rfl, rfl⟩

/-! ## OMIT -/

def omitPaths (source : Json) (paths : List String) : Except TransformStepError Json := do
  let output ← cloneJson source
  let paths ← uniqueSafePaths paths
  .ok (paths.foldl deletePath output)

/-- What is asked for: no listed path is left, and what is apart from all of them is unchanged. -/
structure Omits (source : Json) (paths : List String) (output : Json) : Prop where
  gone : ∀ path ∈ paths, (readPath source path).isSome → readPath output path = none
  kept : ∀ p : List String, (∀ path ∈ paths, Apart (segments path) p) →
    readSegments output p = readSegments source p

/-- Some listed path, reached through records only, is the start of this one. -/
def Deleted (source : Json) (paths : List String) (p : List String) : Prop :=
  ∃ path ∈ paths, segments path <+: p ∧ (ownSegments source (segments path)).isSome

lemma segments_ne_nil (path : String) : segments path ≠ [] := by
  simp [segments]

lemma omitPaths_ok (hvalid : validatePaths (pathList paths) = [])
    (h : omitPaths source paths = .ok output) : output = paths.foldl deletePath source := by
  simp only [omitPaths, cloneJson, uniqueSafePaths_of_valid hvalid] at h
  cases hsafe : assertSafeJsonValue source with
  | error e => simp [hsafe, bind, Except.bind] at h
  | ok _ => simpa [hsafe, bind, Except.bind, eq_comm] using h

/-- What can be reached after all deletions. -/
lemma isSome_walkBy_foldl {step : Json → String → Option Json} (hstep : Follows step)
    (paths : List String) (p : List String) :
    (walkBy step (paths.foldl deletePath source) p).isSome ↔
      (walkBy step source p).isSome ∧ ¬ Deleted source paths p := by
  induction paths using List.reverseRecOn generalizing step p with
  | nil => simp [Deleted]
  | append_singleton paths path ih =>
    have hown := ih follows_get? (segments path)
    have hdeleted : Deleted source (paths ++ [path]) p ↔ Deleted source paths p ∨
        segments path <+: p ∧ (ownSegments source (segments path)).isSome := by
      simp [Deleted, or_and_right, exists_or]
    have habove : segments path <+: p → Deleted source paths (segments path) →
        Deleted source paths p := by
      rintro hp ⟨above, habove, hstart, hreached⟩
      exact ⟨above, habove, hstart.trans hp, hreached⟩
    rw [List.foldl_concat, deletePath, isSome_walkBy_remove hstep (segments_ne_nil path), ih hstep,
      ownSegments, hown, hdeleted, ownSegments]
    tauto

lemma readSegments_foldl {p : List String} (h : ∀ path ∈ paths, Apart (segments path) p) :
    readSegments (paths.foldl deletePath source) p = readSegments source p := by
  induction paths generalizing source with
  | nil => rfl
  | cons path paths ih =>
    rw [List.foldl_cons, ih fun q hq => h q (by simp [hq]), deletePath,
      readSegments_remove (h path (by simp))]

/-- **OMIT removes exactly what was asked** exactly when every listed path that can be read begins
with a listed one that is reached through records only. -/
theorem omit_exact_iff {fields : List (String × Json)} {paths : List String} {output : Json}
    (hvalid : validatePaths (pathList paths) = [])
    (homit : omitPaths (.obj fields) paths = .ok output) :
    Omits (.obj fields) paths output ↔
      ∀ path ∈ paths, (readPath (.obj fields) path).isSome →
        Deleted (.obj fields) paths (segments path) := by
  obtain rfl := omitPaths_ok hvalid homit
  have hreadable : ∀ path, (readPath (paths.foldl deletePath (.obj fields)) path).isSome ↔
      (readPath (.obj fields) path).isSome ∧ ¬ Deleted (.obj fields) paths (segments path) :=
    fun path => isSome_walkBy_foldl follows_follow paths (segments path)
  constructor
  · intro h path hpath hread
    by_contra hdeleted
    have hleft := (hreadable path).mpr ⟨hread, hdeleted⟩
    simp [h.gone path hpath hread] at hleft
  · intro h
    refine ⟨fun path hpath hread => ?_, fun p hp => readSegments_foldl hp⟩
    rw [← Option.not_isSome_iff_eq_none, hreadable]
    exact fun hleft => hleft.2 (h path hpath hread)

/-- A property of a record inside a record. -/
theorem omit_exact_of_records :
    validatePaths (pathList ["a.b"]) = [] ∧
      Omits (.obj [("a", .obj [("b", .num 1), ("c", .num 2)])]) ["a.b"]
        (.obj [("a", .obj [("c", .num 2)])]) := by
  have hvalid : validatePaths (pathList ["a.b"]) = [] := by decide
  refine ⟨hvalid, (omit_exact_iff hvalid rfl).mpr fun path hpath _ => ?_⟩
  obtain rfl := List.mem_singleton.mp hpath
  exact ⟨"a.b", by simp, List.prefix_rfl, rfl⟩

/-- An item of an array is left where it is. -/
theorem omit_leaves_item :
    validatePaths (pathList ["a.0"]) = [] ∧
      omitPaths (.obj [("a", .arr [.num 1])]) ["a.0"] = .ok (.obj [("a", .arr [.num 1])]) ∧
      readPath (.obj [("a", .arr [.num 1])]) "a.0" = some (.num 1) :=
  ⟨by decide, rfl, rfl⟩

end Flowmind.Transform
