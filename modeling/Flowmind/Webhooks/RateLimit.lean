import Flowmind.Program.Crew
import Mathlib.Data.List.Perm.Subperm

/-!
# Rate limits of webhooks

`WebhookRateLimitService.assertAllowed` counts calls in Redis: it increments a counter, and gives it
an expiry with a second command if it is new.  The calls of all processes interleave, and a command
may be refused, or be executed and its answer be lost.

* `ledger`, `returned` — what the answers of a run tell: which calls the counter of a key has counted,
  and which of them have returned.
* `Kept`, `Balanced` — what every step preserves: a counter has an expiry or a call that owes it one,
  and the calls of a counter have different counts.
* `rate_limit_recovers` — if the call that creates a counter gives it its expiry, every counter
  expires within a window after it was touched last, and at most `max` of its calls return.
* `crash_blocks_key` — otherwise a counter may be left without an expiry, and its key stays blocked.
-/

namespace Flowmind.Webhooks

open Program Function

/-! ## Redis -/

/-- The answer of a command is an error: the command was refused, or only its answer is lost. -/
inductive RedisFailure where
  | refused | lost

inductive RedisCommand where
  | incr (key : String)
  | expire (key : String) (seconds : ℕ)
  | ttl (key : String)

def RedisAnswer : RedisCommand → Type
  | .incr _ => Except RedisFailure ℕ
  | .expire .. => Except RedisFailure Unit
  | .ttl _ => Except RedisFailure Int

/-- The expiry is a time in milliseconds. -/
structure Counter where
  count : ℕ
  expiry : Option ℕ
deriving DecidableEq

structure RateLimit where
  max : ℕ
  windowSeconds : ℕ

/-- What there is for a key: its counter, unless that has expired; and, only for the results, the
call that created it, and when it was counted or given an expiry last. -/
structure Tally where
  counter : Option Counter
  creator : ℕ
  touched : ℕ

namespace Tally

/-- The counter after `INCR`. -/
def incremented (tally : Tally) : Counter :=
  (tally.counter.map fun counter => { counter with count := counter.count + 1 }).getD ⟨1, none⟩

def incr (i clock : ℕ) (tally : Tally) : Tally where
  counter := some tally.incremented
  creator := if tally.counter = none then i else tally.creator
  touched := clock

def expire (seconds clock : ℕ) (tally : Tally) : Tally :=
  { tally with
    counter := if seconds = 0 then none else
      tally.counter.map fun counter => { counter with expiry := some (clock + 1000 * seconds) }
    touched := clock }

/-- In seconds; negative without an expiry or a counter. -/
def ttl (clock : ℕ) (tally : Tally) : Int :=
  tally.counter.elim (-2) fun counter =>
    counter.expiry.elim (-1) fun t => ((t - clock + 500) / 1000 : ℕ)

/-- It is later. -/
def wait (clock : ℕ) (tally : Tally) : Tally :=
  { tally with counter := tally.counter.filter fun counter => counter.expiry.all (clock < ·) }

end Tally

structure Redis where
  clock : ℕ
  tally : String → Tally

/-- No key has a counter. -/
def Redis.empty (clock : ℕ) : Redis := ⟨clock, fun _ => ⟨none, 0, 0⟩⟩

def Redis.set (s : Redis) (key : String) (tally : Tally) : Redis :=
  { s with tally := update s.tally key tally }

/-- What is answered, and what is left. -/
def answered {α : Type} (failure : Option RedisFailure) (a : α) (s s' : Redis) :
    Except RedisFailure α × Redis :=
  match failure with
  | none => (.ok a, s')
  | some .refused => (.error .refused, s)
  | some .lost => (.error .lost, s')

/-- The call `i` sends a command. -/
def RedisCommand.perform (i : ℕ) (failure : Option RedisFailure) (s : Redis) :
    (command : RedisCommand) → RedisAnswer command × Redis
  | .incr key =>
    let tally := s.tally key
    answered failure tally.incremented.count s (s.set key (tally.incr i s.clock))
  | .expire key seconds => answered failure () s (s.set key ((s.tally key).expire seconds s.clock))
  | .ttl key => answered failure ((s.tally key).ttl s.clock) s s

/-! ## Calls -/

inductive RateLimitError where
  | unavailable (message : String)
  | exceeded (retryAfter : Int)

def unavailable : RateLimitError := .unavailable "Webhook rate limiting is unavailable"

variable (key : String)

def redisKey : String := "webhook-rate:" ++ key

/-- `ttl > 0 ? ttl : windowSeconds`, also if there is no answer. -/
def retryAfter (windowSeconds : ℕ) : Except RedisFailure Int → Int
  | .ok ttl => if 0 < ttl then ttl else windowSeconds
  | .error _ => windowSeconds

/-- What follows once the call is counted. -/
def assertCount (limit : RateLimit) (key : String) (count : ℕ) :
    Prog RedisCommand RedisAnswer RateLimitError Unit :=
  if limit.max < count then
    .ask (.ttl (redisKey key)) fun ttl => .fail (.exceeded (retryAfter limit.windowSeconds ttl))
  else .ret ()

def assertAllowed (limit : RateLimit) (key : String) :
    Prog RedisCommand RedisAnswer RateLimitError Unit :=
  .ask (.incr (redisKey key)) fun
    | .error _ => .fail unavailable
    | .ok (count : ℕ) =>
      if count = 1 then
        .ask (.expire (redisKey key) limit.windowSeconds) fun
          | .error _ => .fail unavailable
          | .ok () => assertCount limit key count
      else assertCount limit key count

variable (limits : String → RateLimit)

/-- The calls of all processes; others let time pass. -/
def rateLimiting :
    Setting ℕ String Redis RedisCommand RedisAnswer RateLimitError Unit (Option RedisFailure)
      ℕ where
  program _ key := assertAllowed (limits (redisKey key)) key
  perform i failure s command := some (command.perform i failure s)
  leave _ s := s
  other milliseconds s :=
    let clock := s.clock + milliseconds
    some ⟨clock, fun key => (s.tally key).wait clock⟩

abbrev RateEvent : Type := CrewEvent ℕ String RedisAnswer RateLimitError Unit ℕ

/-- Nothing comes between the two commands for a new counter but time and other calls: the call that
created it does not crash, the second command is executed, and the answer of the first one is not
lost. -/
def Unbroken (s : Redis) : RateEvent → Prop
  | .crash i => ∀ key, ∀ counter ∈ (s.tally key).counter, (s.tally key).creator = i →
      counter.expiry ≠ none
  | .perform _ (.incr key) (.error .lost) => (s.tally key).incremented.count ≠ 1
  | .perform _ (.expire ..) (.error .refused) => False
  | _ => True

/-! ## What the calls are told -/

inductive Outcome where
  | going | returned | left
deriving DecidableEq

/-- A call that a counter has counted. -/
structure Counted where
  call : ℕ
  count : ℕ
  outcome : Outcome
deriving DecidableEq

/-- The call `i` ends. -/
def Counted.leave (i : ℕ) (outcome : Outcome) (counted : Counted) : Counted :=
  if counted.call = i ∧ counted.outcome = .going then { counted with outcome } else counted

/-- What an event tells of the calls that the present counter of a key has counted.  A counter that
answers 1 is new, and the calls counted before are none of its calls. -/
def tell (ledger : List Counted) : RateEvent → List Counted
  | .perform i (.incr other) (.ok (count : ℕ)) =>
    if other = key then ⟨i, count, .going⟩ :: if count = 1 then [] else ledger else ledger
  | .ret i () => ledger.map (·.leave i .returned)
  | .fail i _ | .crash i => ledger.map (·.leave i .left)
  | _ => ledger

/-- The calls that the present counter of a key has counted. -/
def ledger (events : List RateEvent) (key : String) : List Counted := events.foldl (tell key) []

/-- Those that have returned. -/
def returned (events : List RateEvent) (key : String) : List Counted :=
  (ledger events key).filter fun counted => counted.outcome = .returned

/-! ## The protocol -/

/-- Where a call is: not counted, about to give its new counter an expiry, or counted. -/
inductive Stage where
  | fresh
  | owes (key : String)
  | counted (key : String) (count : ℕ)

def rateProtocol : Protocol RedisCommand RedisAnswer Stage where
  ok stage
    | .incr _ => stage = .fresh
    | .expire key seconds => stage = .owes key ∧ seconds = (limits key).windowSeconds
    | .ttl _ => ∀ key, stage ≠ .owes key
  rely _ _ := True
  next stage
    | .incr key, .ok (count : ℕ) => if count = 1 then .owes key else .counted key count
    | .expire key _, _ => .counted key 1
    | _, _ => stage

/-- A call returns only if its count is within the limit. -/
def Returns (stage : Stage) (_ : Unit) : Prop :=
  ∃ key count, stage = .counted key count ∧ count ≤ (limits key).max

def Fails (stage : Stage) (_ : RateLimitError) : Prop := ∀ key, stage ≠ .owes key

variable {limits : String → RateLimit}

lemma meets_assertAllowed :
    Meets (rateProtocol limits) (Returns limits) Fails (assertAllowed (limits (redisKey key)) key)
      .fresh := by
  have hcount : ∀ count, Meets (rateProtocol limits) (Returns limits) Fails
      (assertCount (limits (redisKey key)) key count) (.counted (redisKey key) count) := by
    intro count
    unfold assertCount
    split_ifs with hmax
    · exact ⟨nofun, fun _ _ => nofun⟩
    · exact ⟨redisKey key, count, rfl, Nat.le_of_not_lt hmax⟩
  refine ⟨rfl, fun (answer : Except RedisFailure ℕ) _ => ?_⟩
  cases answer with
  | error => exact nofun
  | ok count =>
    by_cases hnew : count = 1
    · subst hnew
      simp only [if_true, rateProtocol]
      refine ⟨⟨rfl, rfl⟩, fun (answer : Except RedisFailure Unit) _ => ?_⟩
      cases answer with
      | error => exact nofun
      | ok => exact hcount 1
    · simp only [if_neg hnew, rateProtocol]
      exact hcount count

/-! ## Every counter expires -/

/-- What holds for a key, if some calls owe its counter an expiry. -/
inductive Tally.Kept (limit : RateLimit) (clock : ℕ) (owes : ℕ → Prop) : Tally → Prop where
  | missing {creator touched : ℕ} (howes : ∀ j, ¬ owes j) : Kept limit clock owes ⟨none, creator, touched⟩
  | unset {count creator touched : ℕ} (howes : ∀ j, owes j ↔ j = creator) :
      Kept limit clock owes ⟨some ⟨count + 1, none⟩, creator, touched⟩
  | set {count t creator touched : ℕ} (htouched : touched ≤ clock) (hlive : clock < t)
      (ht : t ≤ touched + 1000 * limit.windowSeconds) (howes : ∀ j, ¬ owes j) :
      Kept limit clock owes ⟨some ⟨count + 1, some t⟩, creator, touched⟩

section Kept

variable {limit : RateLimit} {clock : ℕ} {owes owes' : ℕ → Prop} {tally : Tally}
  (h : tally.Kept limit clock owes)
include h

lemma Tally.Kept.congr (howes : ∀ j, owes' j ↔ owes j) : tally.Kept limit clock owes' := by
  rwa [funext fun j => propext (howes j)]

/-- A call that is counted owes a new counter an expiry. -/
lemma Tally.Kept.incr {i : ℕ}
    (hnew : tally.incremented.count = 1 → (∀ j, ¬ owes j) → ∀ j, owes' j ↔ j = i)
    (hold : tally.incremented.count ≠ 1 → ∀ j, owes' j ↔ owes j) :
    (tally.incr i clock).Kept limit clock owes' := by
  cases h with
  | missing howes => exact .unset (hnew rfl howes)
  | unset howes => exact .unset fun j => (hold nofun j).trans (howes j)
  | set htouched hlive ht howes =>
    exact .set (Nat.le_refl _) hlive (by omega) fun j hj => howes j ((hold nofun j).mp hj)

/-- A call gives the counter the expiry that it owes. -/
lemma Tally.Kept.expire {i : ℕ} (hi : owes i) (howes' : ∀ j, owes' j → owes j ∧ j ≠ i) :
    (tally.expire limit.windowSeconds clock).Kept limit clock owes' := by
  cases h with
  | missing howes | set _ _ _ howes => exact absurd hi (howes i)
  | unset howes =>
    obtain rfl := (howes i).mp hi
    have hnone : ∀ j, ¬ owes' j := fun j hj => (howes' j hj).2 ((howes j).mp (howes' j hj).1)
    unfold Tally.expire
    split_ifs with hzero
    · exact .missing hnone
    · exact .set (Nat.le_refl _) (by omega) (Nat.le_refl _) hnone

/-- A call that has not created a counter without an expiry owes none. -/
lemma Tally.Kept.not_owes {i : ℕ}
    (hset : ∀ counter ∈ tally.counter, tally.creator = i → counter.expiry ≠ none) : ¬ owes i := by
  cases h with
  | missing howes | set _ _ _ howes => exact howes i
  | unset howes => exact fun hi => hset _ rfl ((howes i).mp hi).symm rfl

lemma Tally.Kept.wait {clock' : ℕ} (hle : clock ≤ clock') :
    (tally.wait clock').Kept limit clock' owes := by
  cases h with
  | missing howes => exact .missing howes
  | unset howes => exact .unset howes
  | @set _ t _ _ htouched _ ht howes =>
    by_cases hlive : clock' < t
    · simp only [Tally.wait, Option.filter_some, Option.all_some, hlive]
      exact .set (Nat.le_trans htouched hle) hlive ht howes
    · simp only [Tally.wait, Option.filter_some, Option.all_some, hlive]
      exact .missing howes

end Kept

/-- What holds for every key. -/
def Kept (limits : String → RateLimit) (w : Views ℕ Redis Stage) : Prop :=
  ∀ key, (w.shared.tally key).Kept (limits key) w.shared.clock fun j => w.view j = some (.owes key)

section Step

variable {w : Views ℕ Redis Stage} {i : ℕ} (h : Kept limits w)

lemma owes_update {key : String} {v : Option Stage} (hi : w.view i ≠ some (.owes key))
    (hv : v ≠ some (.owes key)) (j : ℕ) :
    update w.view i v j = some (.owes key) ↔ w.view j = some (.owes key) := by
  by_cases hj : j = i
  · subst hj
    simp [hi, hv]
  · rw [update_of_ne hj]

include h

lemma Kept.view {v : Option Stage} (hi : ∀ key, w.view i ≠ some (.owes key))
    (hv : ∀ key, v ≠ some (.owes key)) : Kept limits ⟨w.shared, update w.view i v⟩ :=
  fun key => (h key).congr (owes_update (hi key) (hv key))

/-- A command for a key leaves the others as they are. -/
lemma Kept.set {key : String} {tally : Tally} {t v : Stage} (hview : w.view i = some t)
    (ht : ∀ other ≠ key, t ≠ .owes other ∧ v ≠ .owes other)
    (hkey : tally.Kept (limits key) w.shared.clock
      fun j => update w.view i (some v) j = some (.owes key)) :
    Kept limits ⟨w.shared.set key tally, update w.view i (some v)⟩ := by
  intro other
  by_cases hother : other = key
  · subst hother
    simpa only [Redis.set, update_self] using hkey
  · simp only [Redis.set, update_of_ne hother]
    refine (h other).congr (owes_update ?_ ?_)
    · simpa [hview] using (ht other hother).1
    · simpa using (ht other hother).2

/-- The counter of a key is incremented, and the call owes it an expiry if it is new. -/
lemma Kept.incr {key : String} {v : Stage} (hview : w.view i = some .fresh)
    (hv : (w.shared.tally key).incremented.count = 1 → v = .owes key)
    (hv' : (w.shared.tally key).incremented.count ≠ 1 → ∀ key, v ≠ .owes key) :
    Kept limits ⟨w.shared.set key ((w.shared.tally key).incr i w.shared.clock),
      update w.view i (some v)⟩ := by
  by_cases hnew : (w.shared.tally key).incremented.count = 1
  · obtain rfl := hv hnew
    refine h.set hview (fun other hne => ⟨nofun, by simpa using hne.symm⟩)
      ((h key).incr (fun _ hnone j => ?_) (absurd hnew))
    by_cases hj : j = i
    · simp [hj]
    · simpa [hj] using hnone j
  · exact h.set hview (fun other _ => ⟨nofun, hv' hnew other⟩)
      ((h key).incr (absurd · hnew) fun _ => owes_update (by simp [hview]) (by simpa using hv' hnew key))

lemma Kept.expire {key : String} (hview : w.view i = some (.owes key)) :
    Kept limits ⟨w.shared.set key
      ((w.shared.tally key).expire (limits key).windowSeconds w.shared.clock),
      update w.view i (some (.counted key 1))⟩ := by
  refine h.set hview (fun other hne => ⟨by simpa using hne.symm, nofun⟩)
    ((h key).expire hview fun j hj => ?_)
  by_cases hji : j = i
  · simp [hji] at hj
  · exact ⟨by simpa [hji] using hj, hji⟩

lemma Kept.step {event : RateEvent} {w' : Views ℕ Redis Stage} (hguard : Unbroken w.shared event)
    (hstep : ViewStep (rateLimiting limits) (rateProtocol limits) (fun _ _ => .fresh)
      (Returns limits) Fails w event w') : Kept limits w' := by
  cases hstep with
  | start hidle => exact h.view (by simp [hidle]) nofun
  | ret hview hreturns =>
    obtain ⟨_, _, rfl, -⟩ := hreturns
    exact h.view (by simp [hview]) nofun
  | fail hview hfails => exact h.view (by simpa [hview, Fails] using hfails) nofun
  | crash => exact h.view (fun key => (h key).not_owes (hguard key)) nofun
  | other hother =>
    obtain rfl := Option.some.inj hother
    exact fun key => (h key).wait (Nat.le_add_right ..)
  | @perform i stage command answer s' failure hview hok hrely hperform =>
    cases command with
    | ttl key =>
      have hstage : ∀ key, some stage ≠ some (.owes key) := fun key heq => hok key (Option.some.inj heq)
      rcases failure with _ | _ | _ <;> cases hperform <;> exact h.view (hview ▸ hstage) hstage
    | incr key =>
      obtain rfl : stage = .fresh := hok
      rcases failure with _ | _ | _ <;> cases hperform
      · exact h.incr hview (fun hnew => if_pos hnew) fun hold key => by simp [rateProtocol, hold]
      · exact h.view (by simp [hview]) nofun
      · exact h.incr hview (absurd · hguard) nofun
    | expire key seconds =>
      obtain ⟨rfl, rfl⟩ := hok
      rcases failure with _ | _ | _ <;> cases hperform
      · exact h.expire hview
      · exact hguard.elim
      · exact h.expire hview

end Step

/-! ## The calls that return -/

/-- Where a call is that has got this count. -/
def Counts (count : ℕ) (view : Option Stage) : Prop :=
  view = some (.counted key count) ∨ count = 1 ∧ view = some (.owes key)

/-- The counter of the key is as it was, has counted on, or has expired. -/
def Grows (s s' : Redis) : Prop :=
  ∀ counter' ∈ (s'.tally key).counter,
    ∃ counter ∈ (s.tally key).counter, counter.count ≤ counter'.count

lemma Grows.of_eq {key : String} {s s' : Redis} (h : s'.tally key = s.tally key) : Grows key s s' :=
  fun counter hcounter => ⟨counter, h ▸ hcounter, Nat.le_refl _⟩

/-- The calls of a counter have different counts, none above that of the counter, and those that have
returned are within the limit. -/
structure Balanced (limit : RateLimit) (key : String) (w : Views ℕ Redis Stage)
    (ledger : List Counted) : Prop where
  distinct : ledger.Pairwise fun later earlier => earlier.count < later.count
  positive : ∀ counted ∈ ledger, 0 < counted.count
  le : ∀ counted ∈ ledger, ∀ counter ∈ (w.shared.tally key).counter, counted.count ≤ counter.count
  going : ∀ counted ∈ ledger, counted.outcome = .going →
    Counts key counted.count (w.view counted.call)
  within : ∀ counted ∈ ledger, counted.outcome = .returned → counted.count ≤ limit.max

/-- A counter that does not answer 1 has counted before. -/
lemma Tally.exists_counter {tally : Tally} (h : tally.incremented.count ≠ 1) :
    ∃ counter ∈ tally.counter, tally.incremented.count = counter.count + 1 := by
  obtain ⟨_ | counter, creator, touched⟩ := tally
  · exact absurd rfl h
  · exact ⟨counter, rfl, rfl⟩

lemma Redis.grows_incr {other : String} {s : Redis} {i : ℕ}
    (hold : (s.tally other).incremented.count ≠ 1) :
    Grows key s (s.set other ((s.tally other).incr i s.clock)) := by
  by_cases hkey : key = other
  · subst hkey
    obtain ⟨counter, hcounter, hcount⟩ := Tally.exists_counter hold
    simp only [Grows, Redis.set, update_self]
    rintro _ ⟨⟩
    exact ⟨counter, hcounter, hcount ▸ Nat.le_succ _⟩
  · exact .of_eq (update_of_ne hkey ..)

lemma Redis.grows_expire (key other : String) (seconds : ℕ) (s : Redis) :
    Grows key s (s.set other ((s.tally other).expire seconds s.clock)) := by
  by_cases hkey : key = other
  · subst hkey
    intro counter' hcounter'
    simp only [Redis.set, update_self, Tally.expire] at hcounter'
    split_ifs at hcounter'
    · cases hcounter'
    · obtain ⟨counter, hcounter, rfl⟩ := Option.map_eq_some_iff.mp hcounter'
      exact ⟨counter, hcounter, Nat.le_refl _⟩
  · exact .of_eq (update_of_ne hkey ..)

@[simp] lemma Counted.count_leave (i : ℕ) (outcome : Outcome) (counted : Counted) :
    (counted.leave i outcome).count = counted.count := by
  unfold leave
  split_ifs <;> rfl

namespace Balanced

variable {limit : RateLimit} {key : String} {ledger : List Counted} {w : Views ℕ Redis Stage}
  {i : ℕ} (h : Balanced limit key w ledger)
include h

/-- As many calls have returned as there are counts. -/
lemma returned_length_le :
    (ledger.filter fun counted => counted.outcome = .returned).length ≤ limit.max := by
  have hnodup : ((ledger.filter fun counted => counted.outcome = .returned).map
      Counted.count).Nodup := by
    refine List.pairwise_map.mpr ((h.distinct.filter _).imp fun hlt => ?_)
    exact Nat.ne_of_gt hlt
  have hsub : (ledger.filter fun counted => counted.outcome = .returned).map Counted.count ⊆
      List.range' 1 limit.max := by
    intro count hcount
    obtain ⟨counted, hcounted, rfl⟩ := List.mem_map.mp hcount
    obtain ⟨hmem, houtcome⟩ := List.mem_filter.mp hcounted
    have hpos := h.positive counted hmem
    have hmax := h.within counted hmem (of_decide_eq_true houtcome)
    exact List.mem_range'_1.mpr ⟨hpos, by omega⟩
  simpa using (List.subperm_of_subset hnodup hsub).length_le

/-- A call goes on, and the counter may go on counting. -/
lemma go {s : Redis} {v : Option Stage}
    (hview : ∀ count, Counts key count (w.view i) → Counts key count v)
    (hgrows : Grows key w.shared s) :
    Balanced limit key ⟨s, update w.view i v⟩ ledger where
  distinct := h.distinct
  positive := h.positive
  le counted hcounted counter' hcounter' := by
    obtain ⟨counter, hmem, hle⟩ := hgrows counter' hcounter'
    exact Nat.le_trans (h.le counted hcounted counter hmem) hle
  going counted hcounted hgoing := by
    have hcounts := h.going counted hcounted hgoing
    by_cases hi : counted.call = i
    · simpa only [hi, update_self] using hview _ (hi ▸ hcounts)
    · simpa only [update_of_ne hi] using hcounts
  within := h.within

/-- A call ends; it returns only if its count is within the limit. -/
lemma leave {outcome : Outcome} (hend : outcome ≠ .going)
    (hreturns : outcome = .returned → ∀ count, Counts key count (w.view i) → count ≤ limit.max) :
    Balanced limit key ⟨w.shared, update w.view i none⟩ (ledger.map (·.leave i outcome)) where
  distinct := List.pairwise_map.mpr (by simpa using h.distinct)
  positive := by simpa using h.positive
  le := by simpa using h.le
  going := by
    simp only [List.forall_mem_map]
    intro counted hcounted hgoing
    by_cases hi : counted.call = i
    · by_cases hwas : counted.outcome = .going
      · exact absurd hgoing (by simp [Counted.leave, hi, hwas, hend])
      · exact absurd hgoing (by simp [Counted.leave, hwas])
    · simp only [Counted.leave, hi, false_and, if_false, update_of_ne hi] at hgoing ⊢
      exact h.going counted hcounted hgoing
  within := by
    simp only [List.forall_mem_map, Counted.count_leave]
    intro counted hcounted hreturned
    by_cases hi : counted.call = i ∧ counted.outcome = .going
    · have hcounts := h.going counted hcounted hi.2
      rw [hi.1] at hcounts
      exact hreturns (by simpa [Counted.leave, hi] using hreturned) _ hcounts
    · exact h.within counted hcounted (by simpa only [Counted.leave, if_neg hi] using hreturned)

/-- A call is counted by the counter of the key. -/
lemma count (hi : ∀ count, ¬ Counts key count (w.view i)) {count : ℕ}
    (hcount : (w.shared.tally key).incremented.count = count) :
    Balanced limit key
      ⟨w.shared.set key ((w.shared.tally key).incr i w.shared.clock),
        update w.view i (some (if count = 1 then .owes key else .counted key count))⟩
      (⟨i, count, .going⟩ :: if count = 1 then [] else ledger) := by
  have hself : Counts key count (some (if count = 1 then .owes key else .counted key count)) := by
    split_ifs with hnew
    · exact .inr ⟨hnew, rfl⟩
    · exact .inl rfl
  -- A new counter has counted nobody else, an old one has answered smaller counts.
  have hrest : ∀ counted ∈ (if count = 1 then [] else ledger),
      counted ∈ ledger ∧ counted.count < count := by
    intro counted hcounted
    split_ifs at hcounted with hnew
    · cases hcounted
    · obtain ⟨counter, hmem, heq⟩ := Tally.exists_counter (hcount ▸ hnew)
      have hle := h.le counted hcounted counter hmem
      exact ⟨hcounted, by omega⟩
  constructor
  case distinct =>
    refine List.pairwise_cons.mpr ⟨fun counted hcounted => (hrest counted hcounted).2, ?_⟩
    split_ifs
    · exact .nil
    · exact h.distinct
  case positive =>
    refine List.forall_mem_cons.mpr ⟨?_, fun counted hcounted =>
      h.positive counted (hrest counted hcounted).1⟩
    by_cases hnew : count = 1
    · exact hnew ▸ Nat.one_pos
    · obtain ⟨_, -, heq⟩ := Tally.exists_counter (hcount ▸ hnew)
      exact hcount ▸ heq ▸ Nat.succ_pos _
  case le =>
    simp only [Redis.set, update_self]
    refine List.forall_mem_cons.mpr ⟨?_, fun counted hcounted => ?_⟩ <;> rintro _ ⟨⟩
    · exact Nat.le_of_eq hcount.symm
    · exact hcount ▸ Nat.le_of_lt (hrest counted hcounted).2
  case going =>
    refine List.forall_mem_cons.mpr ⟨fun _ => by simpa using hself, fun counted hcounted hgoing => ?_⟩
    have hcounts := h.going counted (hrest counted hcounted).1 hgoing
    have hne : counted.call ≠ i := fun heq => hi _ (heq ▸ hcounts)
    simpa only [update_of_ne hne] using hcounts
  case within =>
    exact List.forall_mem_cons.mpr ⟨nofun, fun counted hcounted =>
      h.within counted (hrest counted hcounted).1⟩

lemma step {event : RateEvent} {w' : Views ℕ Redis Stage} (hlimit : limit = limits key)
    (hguard : Unbroken w.shared event)
    (hstep : ViewStep (rateLimiting limits) (rateProtocol limits) (fun _ _ => .fresh)
      (Returns limits) Fails w event w') : Balanced limit key w' (tell key ledger event) := by
  cases hstep with
  | start hidle => exact h.go (by simp [hidle, Counts]) (.of_eq rfl)
  | ret hview hreturns =>
    obtain ⟨other, count, rfl, hmax⟩ := hreturns
    refine h.leave nofun fun _ count' hcounts => ?_
    obtain ⟨rfl, rfl⟩ : other = key ∧ count = count' := by simpa [hview, Counts] using hcounts
    exact hlimit ▸ hmax
  | fail | crash => exact h.leave nofun nofun
  | other hother =>
    obtain rfl := Option.some.inj hother
    exact ⟨h.distinct, h.positive, fun counted hcounted counter hcounter =>
      h.le counted hcounted counter (Option.mem_filter_iff.mp hcounter).1, h.going, h.within⟩
  | @perform i stage command answer s' failure hview hok hrely hperform =>
    cases command with
    | ttl other =>
      have hcounts : ∀ count, Counts key count (w.view i) → Counts key count (some stage) :=
        fun count hcounts => hview ▸ hcounts
      rcases failure with _ | _ | _ <;> cases hperform <;> exact h.go hcounts (.of_eq rfl)
    | expire other seconds =>
      obtain ⟨rfl, rfl⟩ := hok
      have hcounts : ∀ count, Counts key count (w.view i) →
          Counts key count (some (.counted other 1)) := by
        simp +contextual [hview, Counts]
      have hgrows := Redis.grows_expire key other (limits other).windowSeconds w.shared
      rcases failure with _ | _ | _ <;> cases hperform
      · exact h.go hcounts hgrows
      · exact h.go hcounts (.of_eq rfl)
      · exact h.go hcounts hgrows
    | incr other =>
      obtain rfl : stage = .fresh := hok
      have hnone : ∀ count, ¬ Counts key count (w.view i) := by simp [hview, Counts]
      have hcounts : ∀ v count, Counts key count (w.view i) → Counts key count v :=
        fun _ count hcounts => absurd hcounts (hnone count)
      rcases failure with _ | _ | _ <;> cases hperform
      · by_cases hkey : other = key
        · subst hkey
          simpa only [tell, if_true, rateProtocol] using h.count hnone rfl
        · simpa only [tell, if_neg hkey] using
            h.go (hcounts _) (.of_eq (update_of_ne (Ne.symm hkey) ..))
      · exact h.go (hcounts _) (.of_eq rfl)
      · -- The answer is lost, so the counter is not new.
        exact h.go (hcounts _) (Redis.grows_incr key hguard)

end Balanced

/-- A call that owes a counter an expiry is about to set it. -/
lemma expires_of_owes {stage : Stage} {key : String}
    {program : Prog RedisCommand RedisAnswer RateLimitError Unit}
    (hmeets : Meets (rateProtocol limits) (Returns limits) Fails program stage)
    (howes : stage = .owes key) :
    ∃ after, program = .ask (.expire key (limits key).windowSeconds) after := by
  subst howes
  cases program with
  | ret =>
    obtain ⟨_, _, ⟨⟩, -⟩ := hmeets
  | fail => exact absurd rfl (hmeets key)
  | ask command after =>
    cases command with
    | incr => exact nomatch hmeets.1
    | ttl => exact absurd rfl (hmeets.1 key)
    | expire =>
      obtain ⟨⟨rfl⟩, rfl⟩ := hmeets.1
      exact ⟨after, rfl⟩

/-- **Rate limiting recovers if the call that creates a counter gives it its expiry.**  Every counter
expires within a window after it was counted or given an expiry last, or is about to get its expiry;
and of the calls that it has counted at most `max` return. -/
theorem rate_limit_recovers {clock : ℕ} {events : List RateEvent}
    {c : Crew ℕ Redis RedisCommand RedisAnswer RateLimitError Unit}
    (hrun : Run (CrewStep.Guarded (rateLimiting limits) Unbroken) (.idle (.empty clock)) events c)
    (key : String) :
    (∀ counter ∈ (c.shared.tally key).counter,
      (∃ t, counter.expiry = some t ∧ c.shared.clock < t ∧
        t ≤ (c.shared.tally key).touched + 1000 * (limits key).windowSeconds) ∨
      ∃ i after, c.active i = some (.ask (.expire key (limits key).windowSeconds) after)) ∧
      (returned events key).length ≤ (limits key).max := by
  obtain ⟨w, ⟨hkept, hbalanced⟩, hseen⟩ := CrewStep.Guarded.invariant
    (fun _ key => meets_assertAllowed key)
    (fun events w => Kept limits w ∧ Balanced (limits key) key w (ledger events key))
    ⟨fun _ => .missing nofun, .nil, nofun, nofun, nofun, nofun⟩
    (fun events w event w' hw hstep hguard => ⟨hw.1.step hguard hstep, by
      simpa [ledger] using hw.2.step rfl hguard hstep⟩)
    Crew.seen_idle hrun fun _ _ _ _ => trivial
  refine ⟨?_, hbalanced.returned_length_le⟩
  have hkey := hkept key
  rw [hseen.shared] at hkey
  generalize c.shared.tally key = tally at hkey ⊢
  cases hkey with
  | missing => exact nofun
  | @unset _ creator _ howes =>
    refine fun _ _ => .inr ⟨creator, ?_⟩
    have hview := (howes creator).mpr rfl
    cases hactive : c.active creator with
    | none => simp [hseen.idle creator hactive] at hview
    | some program =>
      obtain ⟨stage, hstage, hmeets⟩ := hseen.active creator program hactive
      obtain ⟨after, rfl⟩ := expires_of_owes hmeets (Option.some.inj (hstage.symm.trans hview))
      exact ⟨after, rfl⟩
  | set _ hlive ht =>
    rintro _ ⟨⟩
    exact .inl ⟨_, rfl, hlive, ht⟩

/-- A step of a call whose commands succeed, or time passes. -/
def succeeds : RateEvent → Bool
  | .crash _ | .perform _ (.incr _) (.error _) | .perform _ (.expire ..) (.error _) => false
  | _ => true

lemma unbroken_of_succeeds {s : Redis} {event : RateEvent} (h : succeeds event = true) :
    Unbroken s event := by
  unfold Unbroken
  split <;> simp_all [succeeds]

/-- The second call is told to come back after a minute. -/
def isRefusal : RateEvent → Bool
  | .fail 1 (.exceeded 60) => true
  | _ => false

/-- A counter gets its expiry half a second after it was created.  The first call is allowed, the
second one is refused. -/
theorem rate_limit_recovers_refused : ∃ events c,
    Run (CrewStep.Guarded (rateLimiting fun _ => ⟨1, 60⟩) Unbroken) (.idle (.empty 7)) events c ∧
      (c.shared.tally "webhook-rate:k").counter = some ⟨2, some 60507⟩ ∧
      (∃ event ∈ events, isRefusal event = true) ∧
      returned events "webhook-rate:k" = [⟨0, 1, .returned⟩] ∧
      (returned events "webhook-rate:k").length ≤ 1 := by
  have hscript : (script (Crew.actIf (rateLimiting fun _ => ⟨1, 60⟩)
      fun _ event => succeeds event = true) (.idle (.empty 7))
      [.start 0 "k", .go 0 none, .other 500, .start 1 "k", .go 0 none, .go 0 none, .go 1 none,
        .go 1 none, .go 1 none]).any (fun done =>
        (done.2.shared.tally "webhook-rate:k").counter = some ⟨2, some 60507⟩ ∧
        (∃ event ∈ done.1, isRefusal event = true) ∧
        returned done.1 "webhook-rate:k" = [⟨0, 1, .returned⟩]) := by decide +kernel
  obtain ⟨events, c, hrun, hcounter, hrefusal, hreturned⟩ := Crew.exists_run hscript
  have hunbroken : Run (CrewStep.Guarded (rateLimiting fun _ => ⟨1, 60⟩) Unbroken)
      (.idle (.empty 7)) events c :=
    hrun.mono fun _ _ _ hstep => ⟨hstep.1, unbroken_of_succeeds hstep.2⟩
  exact ⟨events, c, hunbroken, hcounter, hrefusal, hreturned, (rate_limit_recovers hunbroken _).2⟩

/-- A process crashes between the two commands: a day after its last call the key is still
blocked, and the counter has no expiry. -/
theorem crash_blocks_key : ∃ events c,
    Run (CrewStep (rateLimiting fun _ => ⟨1, 60⟩)) (.idle (.empty 0)) events c ∧
      (c.shared.tally "webhook-rate:k").counter = some ⟨2, none⟩ ∧
      (c.shared.tally "webhook-rate:k").touched + 60000 < c.shared.clock := by
  have hscript : (script (Crew.act (rateLimiting fun _ => ⟨1, 60⟩)) (.idle (.empty 0))
      [.start 0 "k", .go 0 none, .crash 0, .start 1 "k", .go 1 none, .go 1 none, .go 1 none,
        .other 86400000]).any (fun done =>
        (done.2.shared.tally "webhook-rate:k").counter = some ⟨2, none⟩ ∧
        (done.2.shared.tally "webhook-rate:k").touched + 60000 < done.2.shared.clock) := by
    decide +kernel
  exact Crew.exists_free_run hscript

end Flowmind.Webhooks
