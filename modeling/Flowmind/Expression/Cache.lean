import Flowmind.Expression.Parser

/-!
# The cache of the parser

The parser keeps what it has parsed, by the text alone, and forgets the oldest entry when there are
more than `cacheMax`.  The limits are those of the call that has filled the entry, and an entry for
the empty text is never forgotten, since its key counts as missing.

* `parseCached` — the parser with its cache; `cacheAfter` — the cache after a sequence of calls.
* `cache_shows` — a call whose limits the text exceeds is answered from the cache, and the cache
  grows without bound once the empty text is its oldest entry.
* `cache_invisible_iff` — the sequences of calls in which neither happens.
-/

namespace Flowmind.Expression

/-- The entries, the oldest first. -/
abbrev Cache : Type := List (String × ParsedTemplate)

def cacheMax : ℕ := 500

/-- The oldest entry is forgotten if there are too many, unless its key is empty. -/
def evict : Cache → Cache
  | [] => []
  | first :: rest =>
    if cacheMax < (first :: rest).length then
      if first.1 = "" then first :: rest else rest
    else first :: rest

/-- A call: the text and the limits. -/
structure Call where
  source : String
  options : ExpressionParseOptions

/-- The answer of a call without a cache. -/
def Call.fresh (call : Call) : Except ExpressionError ParsedTemplate :=
  parseTemplate call.options call.source

/-- `parseTemplate` with the cache. -/
def parseCached (cache : Cache) (call : Call) : Except ExpressionError ParsedTemplate × Cache :=
  match cache.lookup call.source with
  | some cached => (.ok cached, cache)
  | none =>
    match call.fresh with
    | .error e => (.error e, cache)
    | .ok parsed => (.ok parsed, evict (cache ++ [(call.source, parsed)]))

/-- The cache after a sequence of calls, the first of which found it empty. -/
def cacheAfter (calls : List Call) : Cache :=
  calls.foldl (fun cache call => (parseCached cache call).2) []

lemma cacheAfter_snoc (calls : List Call) (call : Call) :
    cacheAfter (calls ++ [call]) = (parseCached (cacheAfter calls) call).2 := by
  simp [cacheAfter]

/-! ## What the cache holds -/

/-- Every entry is what its text is parsed to. -/
def Cache.Holds (cache : Cache) : Prop := ∀ entry ∈ cache, entry.2 = templateOf entry.1

variable {cache : Cache}

lemma mem_of_mem_evict {entry : String × ParsedTemplate} (h : entry ∈ evict cache) : entry ∈ cache := by
  cases cache with
  | nil => exact h
  | cons first rest =>
    rw [evict] at h
    split_ifs at h
    · exact h
    · exact List.mem_cons_of_mem _ h
    · exact h

/-- **Each call keeps it so.** -/
lemma Cache.Holds.parseCached (h : cache.Holds) (call : Call) :
    Cache.Holds (parseCached cache call).2 := by
  rw [Expression.parseCached]
  split
  · exact h
  · split
    · exact h
    · rename_i parsed hparsed
      intro entry hentry
      rcases List.mem_append.mp (mem_of_mem_evict hentry) with hmem | hmem
      · exact h entry hmem
      · obtain rfl := List.mem_singleton.mp hmem
        exact (parseTemplate_ok_iff.mp hparsed).2.2

lemma holds_cacheAfter (calls : List Call) : (cacheAfter calls).Holds := by
  induction calls using List.reverseRecOn with
  | nil => intro entry hentry; cases hentry
  | append_singleton calls call ih =>
    rw [cacheAfter_snoc]
    exact ih.parseCached call

/-- The text of a call is in the cache. -/
def Cache.Has (cache : Cache) (source : String) : Prop := (cache.lookup source).isSome = true

lemma Cache.Holds.lookup (h : cache.Holds) {source : String} {cached : ParsedTemplate}
    (hlookup : cache.lookup source = some cached) : cached = templateOf source := by
  obtain ⟨before, after, rfl, -⟩ := List.lookup_eq_some_iff.mp hlookup
  exact h (source, cached) (by simp)

/-- The call is accepted with its own limits. -/
def Call.Accepted (call : Call) : Prop := ∃ parsed, call.fresh = .ok parsed

lemma Call.Accepted.fresh_eq {call : Call} (h : call.Accepted) :
    call.fresh = .ok (templateOf call.source) := by
  obtain ⟨parsed, hparsed⟩ := h
  obtain ⟨-, -, rfl⟩ := parseTemplate_ok_iff.mp hparsed
  exact hparsed

/-- **The answer of a call is the one without a cache, unless its text is there and its limits are
exceeded.** -/
lemma parseCached_eq_fresh_iff (h : cache.Holds) (call : Call) :
    (parseCached cache call).1 = call.fresh ↔ (cache.Has call.source → call.Accepted) := by
  rw [parseCached, Cache.Has]
  cases hlookup : cache.lookup call.source with
  | none =>
    cases hfresh : call.fresh <;> simp
  | some cached =>
    have hcached := h.lookup hlookup
    constructor
    · intro heq _
      exact ⟨cached, heq.symm⟩
    · intro haccepted
      rw [(haccepted rfl).fresh_eq, hcached]

/-! ## How many entries it holds -/

/-- The call adds an entry to a cache that is full and whose oldest entry has an empty key. -/
structure Overflows (cache : Cache) (call : Call) : Prop where
  full : cache.length = cacheMax
  oldest : cache.head?.map Prod.fst = some ""
  new : ¬ cache.Has call.source
  accepted : call.Accepted

/-- **The cache stays within its size, unless it overflows.** -/
lemma length_parseCached_le_iff (h : cache.length ≤ cacheMax) (call : Call) :
    (parseCached cache call).2.length ≤ cacheMax ↔ ¬ Overflows cache call := by
  by_cases hnew : cache.Has call.source
  · obtain ⟨cached, hcached⟩ := Option.isSome_iff_exists.mp hnew
    have hkept : (parseCached cache call).2 = cache := by rw [parseCached, hcached]
    rw [hkept]
    exact iff_of_true h fun hover => hover.new hnew
  · have hnone : cache.lookup call.source = none := by
      rwa [Cache.Has, Option.not_isSome_iff_eq_none] at hnew
    by_cases haccepted : call.Accepted
    · have hadded : (parseCached cache call).2 =
          evict (cache ++ [(call.source, templateOf call.source)]) := by
        rw [parseCached, hnone, haccepted.fresh_eq]
      rw [hadded]
      cases cache with
      | nil =>
        refine iff_of_true ?_ fun hover => ?_
        · simp [evict, cacheMax]
        · cases hover.oldest
      | cons first rest =>
        simp only [List.length_cons] at h
        rw [List.cons_append, evict]
        simp only [List.length_cons, List.length_append, List.length_nil]
        split_ifs with hfull hkey
        · refine iff_of_false ?_ (not_not.mpr ⟨?_, ?_, hnew, haccepted⟩)
          · simp only [List.length_cons, List.length_append]
            omega
          · simp only [List.length_cons]
            omega
          · simp [hkey]
        · refine iff_of_true ?_ fun hover => ?_
          · simp only [List.length_append]
            omega
          · exact hkey (by simpa using hover.oldest)
        · refine iff_of_true ?_ fun hover => ?_
          · simp only [List.length_cons, List.length_append, List.length_nil]
            omega
          · have := hover.full
            simp only [List.length_cons] at this
            omega
    · have hkept : (parseCached cache call).2 = cache := by
        rw [parseCached, hnone]
        cases hfresh : call.fresh with
        | error e => rfl
        | ok parsed => exact absurd ⟨parsed, hfresh⟩ haccepted
      rw [hkept]
      exact iff_of_true h fun hover => haccepted hover.accepted

/-! ## Sequences of calls -/

/-- The cache cannot be seen in a sequence of calls, and stays within its size. -/
structure Invisible (calls : List Call) : Prop where
  answers : ∀ before call after, calls = before ++ call :: after →
    (parseCached (cacheAfter before) call).1 = call.fresh
  bounded : ∀ before after, calls = before ++ after → (cacheAfter before).length ≤ cacheMax

/-- **The cache is invisible exactly if no call is answered against its limits and it does not
overflow.**  For every sequence of calls: every answer is the one without a cache, and the cache is
never too large, if and only if

* every call whose text is in the cache is accepted with its own limits;
* no entry is added to a full cache whose oldest entry is that of the empty text. -/
theorem cache_invisible_iff (calls : List Call) :
    Invisible calls ↔ ∀ before call after, calls = before ++ call :: after →
      ((cacheAfter before).Has call.source → call.Accepted) ∧
        ¬ Overflows (cacheAfter before) call := by
  constructor
  · intro h before call after hcalls
    refine ⟨?_, ?_⟩
    · exact (parseCached_eq_fresh_iff (holds_cacheAfter before) call).mp
        (h.answers before call after hcalls)
    · rw [← length_parseCached_le_iff (h.bounded before (call :: after) hcalls) call,
        ← cacheAfter_snoc]
      exact h.bounded (before ++ [call]) after (by rw [hcalls, List.append_assoc]; rfl)
  · intro h
    refine ⟨fun before call after hcalls => ?_, fun before => ?_⟩
    · exact (parseCached_eq_fresh_iff (holds_cacheAfter before) call).mpr
        (h before call after hcalls).1
    · induction before using List.reverseRecOn with
      | nil => intro after _; exact Nat.zero_le _
      | append_singleton before call ih =>
        intro after hcalls
        rw [List.append_assoc] at hcalls
        rw [cacheAfter_snoc, length_parseCached_le_iff (ih (call :: after) hcalls)]
        exact (h before call after hcalls).2

/-! ## Two ways to see the cache -/

/-- Texts without expressions, the first of them empty. -/
def plainCall (n : ℕ) : Call := ⟨String.ofList (List.replicate n 'a'), {}⟩

lemma findPair_replicate {c d : Char} (h : d ≠ c) (n : ℕ) :
    findPair c (List.replicate n d) = none := by
  induction n with
  | zero => rfl
  | succ n ih =>
    cases n with
    | zero => rfl
    | succ n =>
      rw [List.replicate_succ, List.replicate_succ, findPair, if_neg fun hpair => h hpair.1,
        ← List.replicate_succ, ih]
      rfl

lemma accepted_plainCall (n : ℕ) : (plainCall n).Accepted := by
  have hscan : scan (plainCall n).source.toList = ⟨[], List.replicate n 'a'⟩ := by
    simp only [plainCall, String.toList_ofList]
    refine scan_of_none fun gap inside h => ?_
    rw [findPair_replicate (by decide)] at h
    cases h
  refine ⟨_, parseTemplate_ok_iff.mpr ⟨⟨?_, ?_⟩, ⟨?_, ?_⟩, rfl⟩⟩
  · simp [hscan]
  · simp [hscan, plainChars, findPair_replicate (show 'a' ≠ '\x7b' by decide),
      findPair_replicate (show 'a' ≠ '\x7d' by decide)]
  · exact .inl (by rw [hscan])
  · simp [hscan]

lemma plainCall_source_injective : Function.Injective fun n => (plainCall n).source := by
  intro n m h
  have hlist := congrArg (fun source : String => source.toList.length) h
  simpa [plainCall] using hlist

lemma evict_of_oldest_empty (h : cache.head?.map Prod.fst = some "") : evict cache = cache := by
  cases cache with
  | nil => rfl
  | cons first rest =>
    have hkey : first.1 = "" := by simpa using h
    rw [evict, if_pos hkey, ite_self]

/-- The first texts are all in the cache, however many they are. -/
lemma cacheAfter_plainCalls (n : ℕ) :
    cacheAfter ((List.range n).map plainCall) =
      (List.range n).map fun k => ((plainCall k).source, templateOf (plainCall k).source) := by
  induction n with
  | zero => rfl
  | succ n ih =>
    rw [List.range_succ, List.map_append, List.map_append, List.map_singleton, cacheAfter_snoc, ih]
    have hnew : ((List.range n).map fun k =>
        ((plainCall k).source, templateOf (plainCall k).source)).lookup (plainCall n).source
          = none := by
      rw [List.lookup_eq_none_iff]
      intro entry hentry
      obtain ⟨k, hk, rfl⟩ := List.mem_map.mp hentry
      have hne : n ≠ k := (List.mem_range.mp hk).ne'
      simpa using fun heq => hne (plainCall_source_injective heq)
    rw [parseCached, hnew, (accepted_plainCall n).fresh_eq]
    refine evict_of_oldest_empty ?_
    cases n with
    | zero => rfl
    | succ n => simp [List.range_succ_eq_map, plainCall]

/-- The text with the path `a.b`. -/
def twoSegments : Call := ⟨"\x7b\x7ba.b\x7d\x7d", {}⟩

/-- The same text under a limit of one segment. -/
def oneSegment : Call := { twoSegments with options.maxPathDepth := some (.atMost 1) }

/-- A text with a path of two segments is rejected under a limit of one segment, but not after a
call without that limit; and after the empty text the cache grows beyond its size. -/
theorem cache_shows :
    (parseCached (cacheAfter [twoSegments]) oneSegment).1 ≠ oneSegment.fresh ∧
      cacheMax < (cacheAfter ((List.range 501).map plainCall)).length := by
  refine ⟨fun h => ?_, ?_⟩
  · have hcached : (cacheAfter [twoSegments]).Has oneSegment.source := by
      rw [Cache.Has]
      decide +kernel
    obtain ⟨parsed, hparsed⟩ := (parseCached_eq_fresh_iff (holds_cacheAfter _) _).mp h hcached
    have hrejected : oneSegment.fresh.toOption = none := by decide +kernel
    rw [hparsed] at hrejected
    cases hrejected
  · rw [cacheAfter_plainCalls, List.length_map, List.length_range]
    decide

end Flowmind.Expression
