import Flowmind.Engine.Rows
import Flowmind.Program.Run

/-!
# The lease of an execution

A worker that runs an execution holds its lease: its identity and a time, in two columns of the row
of the execution.  `acquire`, `heartbeat`, `assertOwned` and `release` are the calls of the lease
service, each a single conditional statement; `recoverLease` is the statement by which the
reconciler takes the lease away from a running execution.

**Exclusion.**  `LeaseStep` lets any number of workers make these calls in any order, reconcilers
recover and everybody else write what they like, as long as nobody else sets a lease (`LeaseWrite`).
A call reads the clock before its statement is executed, so the time it uses may lie in the past.

* `Lease.acquire_eq_true_iff` — when an acquisition succeeds.
* `LeaseRun.holdsLast` — the worker in the row is the last one whose acquisition succeeded.
* `lease_mutual_exclusion` — what the lease guarantees.
-/

namespace Flowmind

open Program Store

/-! ## The calls -/

namespace Lease

/-- The condition of the acquisition. -/
def acquirable (worker executionId organizationId : String) (now : ℕ) (row : ExecutionRow) : Bool :=
  decide (row.id = executionId) && decide (row.organizationId = organizationId) &&
    row.status.isActive &&
    (row.lockedBy.isNone || row.lockedUntil.any (fun t => decide (t < now)) ||
      decide (row.lockedBy = some worker))

/-- Take the lease, and set the execution running; whether it was free to take. -/
def acquire (db : Database) (leaseDurationMs : ℕ) (worker executionId organizationId : String)
    (now : ℕ) : Bool × Database :=
  (decide (db.executions.count (acquirable worker executionId organizationId now) = 1),
    db.updateExecutions (acquirable worker executionId organizationId now) fun row =>
      { row with
        lockedBy := some worker
        lockedUntil := some (now + leaseDurationMs)
        status := .running
        runAttempt := row.runAttempt + 1 })

/-- The worker holds the lease and its time has not come. -/
def owned (worker executionId : String) (now : ℕ) (row : ExecutionRow) : Bool :=
  decide (row.id = executionId) && decide (row.lockedBy = some worker) &&
    row.lockedUntil.any fun t => decide (now < t)

/-- Renew the lease; whether it was still held. -/
def heartbeat (db : Database) (leaseDurationMs : ℕ) (worker executionId : String) (now : ℕ) :
    Bool × Database :=
  (decide (db.executions.count (owned worker executionId now) = 1),
    db.updateExecutions (owned worker executionId now) fun row =>
      { row with lockedUntil := some (now + leaseDurationMs) })

/-- Whether the lease is held; the worker goes on only if it is. -/
def assertOwned (db : Database) (worker executionId : String) (now : ℕ) : Bool :=
  decide (db.executions.count (owned worker executionId now) = 1)

/-- Give the lease back. -/
def release (db : Database) (worker executionId : String) : Database :=
  db.updateExecutions
    (fun row => decide (row.id = executionId) && decide (row.lockedBy = some worker)) fun row =>
      { row with lockedBy := none, lockedUntil := none }

end Lease

/-- The executions that `recoverExpiredRunning` looks for. -/
def expiredRunning (now : ℕ) (row : ExecutionRow) : Bool :=
  decide (row.status = .running) && row.lockedUntil.any fun t => decide (t < now)

/-- The reconciler puts an execution back into the queue. -/
def recoverLease (db : Database) (executionId : String) (now : ℕ) : Database :=
  db.updateExecutions (fun row => decide (row.id = executionId) && expiredRunning now row) fun row =>
    { row with status := .queued, lockedBy := none, lockedUntil := none }

/-! ## What a call does to a row -/

namespace Lease

variable {db : Database} {d now : ℕ} {worker e org : String} {row : ExecutionRow}

lemma id_of_acquirable (h : acquirable worker e org now row = true) : row.id = e := by
  simp only [acquirable, Bool.and_eq_true, decide_eq_true_eq] at h
  exact h.1.1.1

lemma owned_iff : owned worker e now row = true ↔
    row.id = e ∧ row.lockedBy = some worker ∧ ∃ t, row.lockedUntil = some t ∧ now < t := by
  simp [owned, Option.any_eq_true, and_assoc]

/-- A lease that is taken from another worker has run out. -/
lemma expired_of_acquirable {other : String} (h : acquirable worker e org now row = true)
    (hlocked : row.lockedBy = some other) (hne : other ≠ worker) :
    ∃ t, row.lockedUntil = some t ∧ t < now := by
  simp only [acquirable, Bool.and_eq_true] at h
  simpa [hlocked, hne, Option.any_eq_true] using h.2

/-- The acquisition succeeds on an active execution whose lease is free, over, or the worker's own.
-/
lemma acquire_eq_true_iff : (acquire db d worker e org now).1 = true ↔
    ∃ row, db.executions.get? e = some row ∧ acquirable worker e org now row = true := by
  rw [acquire, decide_eq_true_eq, Database.count_eq_one_iff fun _ => id_of_acquirable]

lemma assertOwned_eq_true_iff : assertOwned db worker e now = true ↔
    ∃ row, db.executions.get? e = some row ∧ owned worker e now row = true := by
  rw [assertOwned, decide_eq_true_eq, Database.count_eq_one_iff fun _ h => (owned_iff.mp h).1]

variable {e' : String}

/-- Who holds the lease after an acquisition: the worker if it succeeded, else who held it before.
-/
lemma lockedBy_acquire {row' : ExecutionRow}
    (h : (acquire db d worker e org now).2.executions.get? e' = some row') :
    (e' = e ∧ (acquire db d worker e org now).1 = true ∧ row'.lockedBy = some worker) ∨
      db.executions.get? e' = some row' := by
  rw [acquire, Database.get?_updateExecutions, Option.map_eq_some_iff] at h
  obtain ⟨row, hrow, rfl⟩ := h
  by_cases hacq : acquirable worker e org now row = true
  · rw [if_pos hacq]
    have hid : e' = e := (Database.id_of_get? hrow).symm.trans (id_of_acquirable hacq)
    exact .inl ⟨hid, acquire_eq_true_iff.mpr ⟨row, hid ▸ hrow, hacq⟩, rfl⟩
  · rw [if_neg hacq]
    exact .inr hrow

/-- A heartbeat touches no row that another worker holds, and renews only the own lease. -/
lemma get?_heartbeat (hrow : db.executions.get? e' = some row)
    (hother : row.lockedBy ≠ some worker) :
    (heartbeat db d worker e now).2.executions.get? e' = some row := by
  rw [heartbeat, Database.get?_updateExecutions_of_not, hrow]
  intro row' hrow'
  rw [hrow] at hrow'
  cases hrow'
  exact Bool.eq_false_iff.mpr fun h => hother (owned_iff.mp h).2.1

lemma lockedBy_heartbeat {row' : ExecutionRow}
    (h : (heartbeat db d worker e now).2.executions.get? e' = some row') :
    ∃ row, db.executions.get? e' = some row ∧ row'.lockedBy = row.lockedBy := by
  rw [heartbeat, Database.get?_updateExecutions, Option.map_eq_some_iff] at h
  obtain ⟨row, hrow, rfl⟩ := h
  refine ⟨row, hrow, ?_⟩
  split <;> rfl

lemma get?_release (hrow : db.executions.get? e' = some row) (hother : row.lockedBy ≠ some worker) :
    (release db worker e).executions.get? e' = some row := by
  rw [release, Database.get?_updateExecutions_of_not, hrow]
  intro row' hrow'
  rw [hrow] at hrow'
  cases hrow'
  simp [hother]

end Lease

/-! ## Workers, reconcilers and everybody else -/

/-- A write outside the lease service: a lease found after it was there before. -/
def LeaseWrite (db db' : Database) : Prop :=
  ∀ e row', db'.executions.get? e = some row' → row'.lockedBy ≠ none →
    ∃ row, db.executions.get? e = some row ∧ row.lockedBy = row'.lockedBy ∧
      row.lockedUntil = row'.lockedUntil

/-- What happens to leases. -/
inductive LeaseEvent where
  | acquire (worker executionId : String) (acquired : Bool)
  | heartbeat (worker executionId : String)
  | assertOwned (worker executionId : String) (owned : Bool)
  | release (worker executionId : String)
  | recover (executionId : String)
  | write
  | tick
deriving DecidableEq, Repr

/-- The clock and the database. -/
structure LeaseState where
  clock : ℕ
  db : Database

/-- One call, recovery, write or move of the clock.  A call has read the clock before. -/
inductive LeaseStep (leaseDurationMs : ℕ) : LeaseState → LeaseEvent → LeaseState → Prop where
  | acquire {s : LeaseState} {worker e org : String} {now : ℕ} (hnow : now ≤ s.clock) :
      LeaseStep leaseDurationMs s
        (.acquire worker e (Lease.acquire s.db leaseDurationMs worker e org now).1)
        ⟨s.clock, (Lease.acquire s.db leaseDurationMs worker e org now).2⟩
  | heartbeat {s : LeaseState} {worker e : String} {now : ℕ} (hnow : now ≤ s.clock) :
      LeaseStep leaseDurationMs s (.heartbeat worker e)
        ⟨s.clock, (Lease.heartbeat s.db leaseDurationMs worker e now).2⟩
  | assertOwned {s : LeaseState} {worker e : String} {now : ℕ} (hnow : now ≤ s.clock) :
      LeaseStep leaseDurationMs s
        (.assertOwned worker e (Lease.assertOwned s.db worker e now)) s
  | release {s : LeaseState} {worker e : String} :
      LeaseStep leaseDurationMs s (.release worker e) ⟨s.clock, Lease.release s.db worker e⟩
  | recover {s : LeaseState} {e : String} {now : ℕ} (hnow : now ≤ s.clock) :
      LeaseStep leaseDurationMs s (.recover e) ⟨s.clock, recoverLease s.db e now⟩
  | write {s : LeaseState} {db' : Database} (h : LeaseWrite s.db db') :
      LeaseStep leaseDurationMs s .write ⟨s.clock, db'⟩
  | tick {s : LeaseState} {clock : ℕ} (h : s.clock ≤ clock) :
      LeaseStep leaseDurationMs s .tick ⟨clock, s.db⟩

/-- Nobody holds a lease. -/
def Unleased (db : Database) : Prop :=
  ∀ e row, db.executions.get? e = some row → row.lockedBy = none

/-- In these events the worker acquired the execution, and nobody else did since. -/
def HoldsLast (events : List LeaseEvent) (worker e : String) : Prop :=
  ∃ before after, events = before ++ .acquire worker e true :: after ∧
    ∀ other, .acquire other e true ∈ after → other = worker

namespace HoldsLast

variable {events : List LeaseEvent} {worker e : String}

lemma acquired : HoldsLast (events ++ [.acquire worker e true]) worker e :=
  ⟨events, [], by simp, by simp⟩

lemma snoc {event : LeaseEvent} (h : HoldsLast events worker e)
    (hevent : ∀ other, event = .acquire other e true → other = worker) :
    HoldsLast (events ++ [event]) worker e := by
  obtain ⟨before, after, rfl, hafter⟩ := h
  refine ⟨before, after ++ [event], by simp, fun other hother => ?_⟩
  rcases List.mem_append.mp hother with hold | hnew
  · exact hafter other hold
  · exact hevent other (List.mem_singleton.mp hnew).symm

end HoldsLast

/-- A lease found after a step other than an acquisition was there before. -/
lemma LeaseStep.lockedBy {d : ℕ} {s s' : LeaseState} {event : LeaseEvent}
    (h : LeaseStep d s event s') {e worker : String} {row' : ExecutionRow}
    (hrow' : s'.db.executions.get? e = some row') (hlocked : row'.lockedBy = some worker) :
    event = .acquire worker e true ∨
      ((∀ other, event = .acquire other e true → other = worker) ∧
        ∃ row, s.db.executions.get? e = some row ∧ row.lockedBy = some worker) := by
  cases h with
  | @acquire w e' org now _ =>
    rcases Lease.lockedBy_acquire hrow' with ⟨rfl, hacq, hmine⟩ | hkept
    · rw [hmine] at hlocked
      cases hlocked
      exact .inl (by rw [hacq])
    · refine .inr ⟨fun other hother => ?_, row', hkept, hlocked⟩
      obtain ⟨rfl, rfl, hacq⟩ := LeaseEvent.acquire.inj hother
      obtain ⟨row, hrow, hcond⟩ := Lease.acquire_eq_true_iff.mp hacq
      -- The row was taken, so after the step the worker of this acquisition is in it.
      rw [Lease.acquire, Database.get?_updateExecutions, hrow, Option.map_some,
        if_pos hcond] at hrow'
      rw [← Option.some.inj hrow'] at hlocked
      exact Option.some.inj hlocked
  | heartbeat _ =>
    obtain ⟨row, hrow, hsame⟩ := Lease.lockedBy_heartbeat hrow'
    exact .inr ⟨by simp, row, hrow, hsame ▸ hlocked⟩
  | assertOwned _ => exact .inr ⟨by simp, row', hrow', hlocked⟩
  | release =>
    refine .inr ⟨by simp, ?_⟩
    rw [Lease.release, Database.get?_updateExecutions, Option.map_eq_some_iff] at hrow'
    obtain ⟨row, hrow, rfl⟩ := hrow'
    split at hlocked
    · cases hlocked
    · exact ⟨row, hrow, hlocked⟩
  | recover _ =>
    refine .inr ⟨by simp, ?_⟩
    rw [recoverLease, Database.get?_updateExecutions, Option.map_eq_some_iff] at hrow'
    obtain ⟨row, hrow, rfl⟩ := hrow'
    split at hlocked
    · cases hlocked
    · exact ⟨row, hrow, hlocked⟩
  | write hwrite =>
    obtain ⟨row, hrow, hsame, -⟩ := hwrite e row' hrow' (by simp [hlocked])
    exact .inr ⟨by simp, row, hrow, hsame.trans hlocked⟩
  | tick _ => exact .inr ⟨by simp, row', hrow', hlocked⟩

/-- The worker in a row is the last one that acquired the execution. -/
lemma LeaseRun.holdsLast {d : ℕ} {s₀ s : LeaseState} {events : List LeaseEvent}
    (h₀ : Unleased s₀.db) (hrun : Run (LeaseStep d) s₀ events s) :
    ∀ e worker row, s.db.executions.get? e = some row → row.lockedBy = some worker →
      HoldsLast events worker e := by
  refine hrun.invariant (fun events s => ∀ e worker row, s.db.executions.get? e = some row →
    row.lockedBy = some worker → HoldsLast events worker e) ?_ ?_
  · intro e worker row hrow hlocked
    rw [h₀ e row hrow] at hlocked
    cases hlocked
  · intro events s event s' _ ih hstep e worker row' hrow' hlocked
    rcases hstep.lockedBy hrow' hlocked with rfl | ⟨hother, row, hrow, hlocked⟩
    · exact .acquired
    · exact (ih e worker row hrow hlocked).snoc hother

/-- **Exclusion.**  After any run from a database without leases, whatever comes next:

* an acquisition does not succeed while the lease of another worker has not run out;
* a heartbeat and a release leave every row alone that the worker does not hold;
* a check of the lease succeeds only for the worker whose acquisition was the last to succeed. -/
theorem lease_mutual_exclusion {d : ℕ} {s₀ s s' : LeaseState} {events : List LeaseEvent}
    {event : LeaseEvent} (h₀ : Unleased s₀.db) (hrun : Run (LeaseStep d) s₀ events s)
    (hstep : LeaseStep d s event s') :
    (∀ worker e row other, event = .acquire worker e true → s.db.executions.get? e = some row →
      row.lockedBy = some other → other ≠ worker → ∃ t, row.lockedUntil = some t ∧ t < s.clock) ∧
    (∀ worker e e' row, event = .heartbeat worker e ∨ event = .release worker e →
      s.db.executions.get? e' = some row → row.lockedBy ≠ some worker →
      s'.db.executions.get? e' = some row) ∧
    (∀ worker e, event = .assertOwned worker e true → HoldsLast events worker e) := by
  refine ⟨?_, ?_, ?_⟩
  · intro worker e row other hevent hrow hlocked hne
    cases hstep with
    | acquire hnow =>
      obtain ⟨rfl, rfl, hacquired⟩ := LeaseEvent.acquire.inj hevent
      obtain ⟨row', hrow', hcond⟩ := Lease.acquire_eq_true_iff.mp hacquired
      rw [hrow] at hrow'
      cases hrow'
      obtain ⟨t, ht, hlt⟩ := Lease.expired_of_acquirable hcond hlocked hne
      exact ⟨t, ht, hlt.trans_le hnow⟩
    | _ => cases hevent
  · intro worker e e' row hevent hrow hother
    cases hstep with
    | heartbeat hnow =>
      rcases hevent with hevent | hevent <;> cases hevent
      exact Lease.get?_heartbeat hrow hother
    | release =>
      rcases hevent with hevent | hevent <;> cases hevent
      exact Lease.get?_release hrow hother
    | _ => rcases hevent with hevent | hevent <;> cases hevent
  · intro worker e hevent
    cases hstep with
    | assertOwned hnow =>
      obtain ⟨rfl, rfl, howned⟩ := LeaseEvent.assertOwned.inj hevent
      obtain ⟨row, hrow, hcond⟩ := Lease.assertOwned_eq_true_iff.mp howned
      exact LeaseRun.holdsLast h₀ hrun _ _ row hrow (Lease.owned_iff.mp hcond).2.1
    | _ => cases hevent

/-- The database of the examples: one execution, in the queue. -/
def queuedDb : Database := .single (newExecution "run" "org" "workflow" "version" .queued 0)

lemma unleased_queuedDb : Unleased queuedDb := by
  intro e row hrow
  obtain ⟨hmem, -⟩ := Table.get?_eq_some_iff.mp hrow
  rw [List.mem_singleton.mp hmem]
  rfl

/-- Worker `a` acquires the execution at time 0 with a lease of 10, and `b` at time 20, when it has
run out; `b` then passes the check, and was the last to acquire it. -/
theorem lease_taken_over :
    ∃ s s', Run (LeaseStep 10) ⟨0, queuedDb⟩
        [.acquire "a" "run" true, .tick, .acquire "b" "run" true] s ∧
      LeaseStep 10 s (.assertOwned "b" "run" true) s' ∧
      HoldsLast [.acquire "a" "run" true, .tick, .acquire "b" "run" true] "b" "run" := by
  let db₁ := (Lease.acquire queuedDb 10 "a" "run" "org" 0).2
  let db₂ := (Lease.acquire db₁ 10 "b" "run" "org" 20).2
  have ha : (Lease.acquire queuedDb 10 "a" "run" "org" 0).1 = true := by decide
  have hb : (Lease.acquire db₁ 10 "b" "run" "org" 20).1 = true := by decide
  have hown : Lease.assertOwned db₂ "b" "run" 20 = true := by decide
  have h₁ : LeaseStep 10 ⟨0, queuedDb⟩ (.acquire "a" "run" true) ⟨0, db₁⟩ :=
    ha ▸ LeaseStep.acquire (Nat.le_refl 0)
  have h₂ : LeaseStep 10 ⟨0, db₁⟩ .tick ⟨20, db₁⟩ := LeaseStep.tick (Nat.zero_le 20)
  have h₃ : LeaseStep 10 ⟨20, db₁⟩ (.acquire "b" "run" true) ⟨20, db₂⟩ :=
    hb ▸ LeaseStep.acquire (Nat.le_refl 20)
  have h₄ : LeaseStep 10 ⟨20, db₂⟩ (.assertOwned "b" "run" true) ⟨20, db₂⟩ :=
    hown ▸ LeaseStep.assertOwned (Nat.le_refl 20)
  have hrun : Run (LeaseStep 10) ⟨0, queuedDb⟩
      [.acquire "a" "run" true, .tick, .acquire "b" "run" true] ⟨20, db₂⟩ :=
    ((Run.nil.snoc h₁).snoc h₂).snoc h₃
  exact ⟨_, _, hrun, h₄,
    (lease_mutual_exclusion unleased_queuedDb hrun h₄).2.2 "b" "run" rfl⟩

end Flowmind
