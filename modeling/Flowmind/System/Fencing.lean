import Flowmind.System.Effects

/-!
# Fencing of stale workers

A worker whose lease was taken over goes on until it next looks at the lease, and what it writes
until then is not conditional on the lease.

**The lease in the system.**  `WorldRun.leaseRun` says that every run of the system is, as far as
leases are concerned, one of `LeaseStep`; so the worker in a row is the last one that acquired the
execution.

**Fenced programs.**  A program is `Fenced` if it writes nothing before its next successful check of
the lease.  A run is fenced when it begins (`fenced_run`), and not while it works on a step.

* `stale_writes_fenced` — if the lease is only ever taken from workers that are at a fenced point, a
  worker that has lost it changes nothing any more.
* `stale_completion_written` — otherwise it may: the handler of a step takes longer than the lease.
-/

namespace Flowmind

open Program

/-! ## The lease in the system -/

/-- What an event means for leases. -/
def Event.lease : Event → Option LeaseEvent
  | .tick => some .tick
  | .statement job .acquire (acquired : Bool) => some (.acquire job.worker job.executionId acquired)
  | .statement job .assertOwned (owned : Bool) => some (.assertOwned job.worker job.executionId owned)
  | .statement job .release _ => some (.release job.worker job.executionId)
  | .statement .. | .passStatement .. | .api _ => some .write
  | .heartbeat worker executionId => some (.heartbeat worker executionId)
  | .start _ | .stop _ | .startPass _ | .stopPass _ => none

/-- The clock and the database of a world. -/
def World.leaseState (w : World) : LeaseState := ⟨w.clock, w.db⟩

variable {p : Platform} {w : World}

section LeaseWrite

variable {w' : World} {event : Event}

/-- An event outside the lease service leaves the lease of an execution alone, or clears it. -/
lemma Event.lock_onExecution (h : event.lease = some .write) (now : ℕ) (row : ExecutionRow) :
    ((event.onExecution p w now).data row).lockedBy = none ∨
      ((event.onExecution p w now).data row).lockedBy = row.lockedBy ∧
        ((event.onExecution p w now).data row).lockedUntil = row.lockedUntil := by
  cases event with
  | statement job made answer =>
    cases made with
    | acquire | assertOwned | release => cases h
    | cancelChild => exact .inl rfl
    | _ => exact .inr ⟨rfl, rfl⟩
  | passStatement worker made answer =>
    cases made with
    | recoverExecution => exact .inl rfl
    | _ => exact .inr ⟨rfl, rfl⟩
  | api write =>
    cases write with
    | cancel | cancelDescendants | cancelTestRun | skipWait => exact .inl rfl
    | decideApproval =>
      simp only [onExecution, ApiWrite.onExecution]
      split <;> exact .inr ⟨rfl, rfl⟩
    | _ => exact .inr ⟨rfl, rfl⟩
  | _ => cases h

/-- A new execution is not leased. -/
lemma Event.lockedBy_of_creates {row : ExecutionRow} {clock : ℕ}
    (h : event.creates clock = some row) : row.lockedBy = none := by
  unfold creates at h
  split at h <;> cases h <;> rfl

lemma WorldStep.leaseWrite (hstep : WorldStep p w event w') (h : event.lease = some .write) :
    LeaseWrite w.db w'.db := by
  intro e row' hrow' hlocked
  cases hrow : w.db.executions.get? e with
  | none => exact absurd (Event.lockedBy_of_creates (hstep.creates_of_none hrow hrow')) hlocked
  | some row =>
    obtain ⟨now, -, row₁, hrow₁, hmaybe⟩ := hstep.execution_cases hrow
    cases hrow₁.symm.trans hrow'
    obtain rfl | ⟨-, rfl⟩ := hmaybe
    · exact ⟨row', rfl, rfl, rfl⟩
    · obtain ⟨hby, huntil⟩ := (Event.lock_onExecution h now row).resolve_left hlocked
      exact ⟨row, rfl, hby.symm, huntil.symm⟩

/-- A step of the system is one of the lease service, or not visible there. -/
lemma WorldStep.lease (hstep : WorldStep p w event w') :
    event.lease.elim (w'.leaseState = w.leaseState) fun leaseEvent =>
      LeaseStep p.leaseDurationMs w.leaseState leaseEvent w'.leaseState := by
  have hwrite := hstep.leaseWrite
  cases hstep with
  | tick ms => exact .tick (Nat.le_add_right _ _)
  | start | stop | startPass | stopPass => rfl
  | heartbeat worker executionId hnow => exact .heartbeat hnow
  | passStatement | api => exact .write (hwrite rfl)
  | @statement active statement k answer db oracle hactive hprogram hperform =>
    cases statement with
    | acquire =>
      cases hperform
      exact .acquire (Nat.sub_le _ _)
    | assertOwned =>
      cases hperform
      exact .assertOwned (Nat.sub_le _ _)
    | release =>
      cases hperform
      exact .release
    | _ => exact .write (hwrite rfl)

end LeaseWrite

variable {events : List Event}

/-- **Runs of the system are runs of the lease service.** -/
lemma WorldRun.leaseRun (hrun : Run (WorldStep p) World.initial events w) :
    Run (LeaseStep p.leaseDurationMs) World.initial.leaseState (events.filterMap Event.lease)
      w.leaseState :=
  hrun.simulate fun _ _ _ hstep => hstep.lease

variable {e worker : String}

/-- The worker in a row was the last one whose acquisition succeeded. -/
lemma WorldRun.holdsLast {row : ExecutionRow} (hrun : Run (WorldStep p) World.initial events w)
    (hrow : w.db.executions.get? e = some row) (hlocked : row.lockedBy = some worker) :
    HoldsLast (events.filterMap Event.lease) worker e :=
  LeaseRun.holdsLast (fun _ _ h => by cases h) (WorldRun.leaseRun hrun) e worker row hrow hlocked

/-- Only one worker was the last. -/
lemma HoldsLast.unique {events : List LeaseEvent} {other : String} (h : HoldsLast events worker e)
    (h' : HoldsLast events other e) : worker = other := by
  obtain ⟨before, after, rfl, hafter⟩ := h
  obtain ⟨before', after', heq, hafter'⟩ := h'
  rcases List.append_eq_append_iff.mp heq with ⟨between, -, htail⟩ | ⟨between, -, htail⟩
  · cases between with
    | nil => exact (LeaseEvent.acquire.inj (List.cons.inj htail).1).1
    | cons first between =>
      rw [List.cons_append, List.cons.injEq] at htail
      exact (hafter other (htail.2 ▸ by simp)).symm
  · cases between with
    | nil => exact (LeaseEvent.acquire.inj (List.cons.inj htail).1).1.symm
    | cons first between =>
      rw [List.cons_append, List.cons.injEq] at htail
      exact hafter' worker (htail.2 ▸ by simp)

/-! ## Fenced programs -/

/-- The statements that write to executions or their steps without looking at the lease. -/
def Statement.isWrite : Statement → Bool
  | .markStarted _ | .markWaiting _ | .transitionTerminal .. | .writeContext | .writeOutput _
  | .upsertStep .. | .writeStep .. | .markHandled _ | .cancelChild .. | .startChild .. => true
  | _ => false

/-- The answers that a worker may get which does not hold the lease. -/
def Statement.StaleAnswer : (statement : Statement) → Answer statement → Prop
  | .acquire, (acquired : Bool) => acquired = false
  | .assertOwned, (owned : Bool) => owned = false
  | _, _ => True

/-- No writes, as long as the worker may not hold the lease. -/
def fence : Protocol Statement Answer Unit where
  ok _ statement := statement.isWrite = false
  rely := Statement.StaleAnswer
  next _ _ _ := ()

/-- The program writes nothing before its next successful check of the lease. -/
def Fenced {α : Type} (program : Eng α) : Prop :=
  Meets fence (fun _ _ => True) (fun _ _ => True) program ()

/-- A run is fenced when it begins. -/
lemma fenced_run (p : Platform) (executionId : String) : Fenced (run p executionId) :=
  Meets.step rfl fun _ hstale => by
    cases hstale
    exact trivial

/-! ## Runs in which leases are taken at fenced points -/

/-- A step that takes the lease of an execution only when all other workers on it are fenced. -/
def FencedStep (p : Platform) (w : World) (event : Event) (w' : World) : Prop :=
  WorldStep p w event w' ∧ ∀ worker e, event.lease = some (.acquire worker e true) →
    ∀ other active, w.jobs other = some active → active.job.executionId = e → other ≠ worker →
      Fenced active.program

/-- An event that is not an acquisition by somebody else. -/
lemma HoldsLast.event {event : Event} (h : HoldsLast (events.filterMap Event.lease) worker e)
    (hevent : ∀ other, event.lease = some (.acquire other e true) → other = worker) :
    HoldsLast ((events ++ [event]).filterMap Event.lease) worker e := by
  rw [List.filterMap_append]
  cases hlease : event.lease with
  | none => simpa [hlease] using h
  | some leaseEvent =>
    simp only [List.filterMap_cons, hlease]
    exact h.snoc fun other hother => hevent other (hother ▸ hlease)

/-- Every worker holds the lease or is fenced. -/
lemma WorldRun.fenced (hrun : Run (FencedStep p) World.initial events w) {active : ActiveJob}
    (hactive : w.jobs worker = some active) :
    HoldsLast (events.filterMap Event.lease) worker active.job.executionId ∨
      Fenced active.program := by
  refine hrun.invariant (fun events w => ∀ worker active, w.jobs worker = some active →
    HoldsLast (events.filterMap Event.lease) worker active.job.executionId ∨ Fenced active.program)
    (fun _ _ h => by cases h) ?_ worker active hactive
  intro events w event w' hrun ih hstep worker active' hactive'
  have hbefore : Run (WorldStep p) World.initial events w := hrun.mono fun _ _ _ h => h.1
  rcases hstep.1.jobs_cases hactive' with
    ⟨hactive, hother⟩ | ⟨job, rfl, -, rfl, -⟩ |
      ⟨active, statement, k, answer, oracle, hactive, rfl, rfl, hprogram, hperform, rfl⟩
  · rcases ih worker active' hactive with hlast | hfenced
    · by_cases htaken : ∃ other, event.lease = some (.acquire other active'.job.executionId true) ∧
          other ≠ worker
      · obtain ⟨other, hlease, hne⟩ := htaken
        exact .inr (hstep.2 other _ hlease worker active' hactive rfl hne.symm)
      · exact .inl (hlast.event fun other hlease => not_not.mp fun hne => htaken ⟨other, hlease, hne⟩)
    · exact .inr hfenced
  · exact .inr (fenced_run p job.executionId)
  · -- A successful check makes the worker the last one to have acquired the execution.
    have hown : ∀ other, (Event.statement active.job statement answer).lease =
        some (.acquire other active.job.executionId true) → other = active.job.worker := by
      cases statement with
      | acquire => exact fun other h => (LeaseEvent.acquire.inj (Option.some.inj h)).1.symm
      | _ => simp [Event.lease]
    rcases ih active.job.worker active hactive with hlast | hfenced
    · exact .inl (hlast.event hown)
    rw [hprogram] at hfenced
    by_cases hstale : statement.StaleAnswer answer
    · exact .inr (hfenced.2 answer hstale)
    · cases statement with
      | acquire =>
        obtain rfl : answer = true := eq_true_of_ne_false hstale
        left
        rw [List.filterMap_append]
        exact .acquired
      | assertOwned =>
        obtain rfl : answer = true := eq_true_of_ne_false hstale
        have howned := (Prod.mk.inj (Option.some.inj hperform)).1
        obtain ⟨row, hrow, hcond⟩ := Lease.assertOwned_eq_true_iff.mp howned
        exact .inl ((WorldRun.holdsLast hbefore hrow (Lease.owned_iff.mp hcond).2.1).event hown)
      | _ => exact absurd trivial hstale

/-- The worker of an event, and the execution it works on. -/
def Event.writer : Event → Option (String × String)
  | .statement job _ _ => some (job.worker, job.executionId)
  | .heartbeat worker executionId => some (worker, executionId)
  | _ => none

/-- A statement that is neither a write nor one of the lease service changes nothing. -/
lemma Statement.db_of_not_write {job : Job} {clock : ℕ} {oracle : Oracle} {db db' : Database}
    {statement : Statement} {answer : Answer statement}
    (h : statement.perform p job clock oracle db = some (answer, db'))
    (hwrite : statement.isWrite = false) (hacquire : statement ≠ .acquire)
    (hrelease : statement ≠ .release) : db' = db := by
  cases statement with
  | acquire => exact absurd rfl hacquire
  | release => exact absurd rfl hrelease
  | exhausted loop => cases h
  | markStarted | markWaiting | transitionTerminal | writeContext | writeOutput | upsertStep
  | writeStep | markHandled | cancelChild | startChild => cases hwrite
  | _ => exact (congrArg Prod.snd (Option.some.inj h)).symm

/-- **Fencing.**  If leases are only taken from workers that are at a fenced point, then a worker
does not change the execution or any step once another one has acquired it, unless it acquires it
again. -/
theorem stale_writes_fenced {p : Platform} {events : List Event} {w w' : World} {event : Event}
    {worker holder e : String} (hrun : Run (FencedStep p) World.initial events w)
    (hholder : HoldsLast (events.filterMap Event.lease) holder e) (hne : worker ≠ holder)
    (hstep : WorldStep p w event w') (hwriter : event.writer = some (worker, e)) :
    event.lease = some (.acquire worker e true) ∨
      (w'.db.executions.get? e = w.db.executions.get? e ∧
        ∀ id, w'.db.steps.get? id = w.db.steps.get? id) := by
  have hworld : Run (WorldStep p) World.initial events w := hrun.mono fun _ _ _ h => h.1
  -- The row does not name the worker, so what is conditional on the lease does nothing.
  have hunlocked : ∀ row, w.db.executions.get? e = some row → row.lockedBy ≠ some worker :=
    fun row hrow hlocked => hne ((WorldRun.holdsLast hworld hrow hlocked).unique hholder)
  cases hstep with
  | heartbeat own e' hnow =>
    cases hwriter
    refine .inr ⟨Database.get?_updateExecutions_of_not fun row hrow => ?_, fun _ => rfl⟩
    exact Bool.eq_false_iff.mpr fun howned => hunlocked row hrow (Lease.owned_iff.mp howned).2.1
  | @statement active statement k answer db oracle hactive hprogram hperform =>
    cases hwriter
    rcases WorldRun.fenced hrun hactive with hlast | hfenced
    · exact absurd (hlast.unique hholder) hne
    rw [hprogram] at hfenced
    cases statement with
    | acquire =>
      obtain ⟨hanswer, rfl⟩ := Prod.mk.inj (Option.some.inj hperform)
      cases answer with
      | true => exact .inl rfl
      | false =>
        refine .inr ⟨Database.get?_updateExecutions_of_not fun row hrow => ?_, fun _ => rfl⟩
        refine Bool.eq_false_iff.mpr fun hcond => Bool.eq_false_iff.mp hanswer ?_
        exact (Lease.acquire_eq_true_iff (d := 0)).mpr ⟨row, hrow, hcond⟩
    | release =>
      cases hperform
      refine .inr ⟨Database.get?_updateExecutions_of_not fun row hrow => ?_, fun _ => rfl⟩
      simp [hunlocked row hrow]
    | _ =>
      obtain rfl := Statement.db_of_not_write hperform hfenced.1 (by simp) (by simp)
      exact .inr ⟨rfl, fun _ => rfl⟩
  | _ => cases hwriter

/-! ## A lease that is taken at a fenced point, and one that is not -/

/-- The next statement is a check of the lease, and without the lease the run ends there. -/
def checksFirst {α : Type} : Eng α → Bool
  | Prog.ask .assertOwned k => match k false with
    | .ret _ | .fail _ => true
    | Prog.ask .. => false
  | _ => false

lemma fenced_of_checksFirst {α : Type} {program : Eng α} (h : checksFirst program = true) :
    Fenced program := by
  unfold checksFirst at h
  split at h
  case h_1 k =>
    refine ⟨rfl, fun answer hstale => ?_⟩
    obtain rfl : answer = false := hstale
    split at h
    case h_1 heq => rw [heq]; exact trivial
    case h_2 heq => rw [heq]; exact trivial
    case h_3 => cases h
  case h_2 => cases h

/-- The event is the worker's own, or that of nobody. -/
def Event.onlyBy (worker : String) : Event → Bool
  | .start job | .statement job _ _ => decide (job.worker = worker)
  | .tick | .api _ => true
  | _ => false

/-- A worker that is alone takes its lease from nobody. -/
lemma fenced_onlyBy (hrun : Run (WorldStep p) World.initial events w)
    (hevents : events.all (Event.onlyBy worker) = true) :
    Run (FencedStep p) World.initial events w ∧ ∀ other, other ≠ worker → w.jobs other = none := by
  refine hrun.mono_invariant (fun w => ∀ other, other ≠ worker → w.jobs other = none)
    (fun event => event.onlyBy worker = true) ?_ (fun _ _ => rfl)
    fun event hmem => List.all_eq_true.mp hevents event hmem
  intro w event w' hothers hgood hstep
  refine ⟨⟨hstep, fun taker e hlease other active hactive _ hne => ?_⟩, fun other hne =>
    Option.eq_none_iff_forall_ne_some.mpr fun active' hactive' => ?_⟩
  · have htaker : taker = worker := by
      cases hstep with
      | @statement _ statement =>
        cases statement with
        | acquire =>
          obtain ⟨rfl, -⟩ := LeaseEvent.acquire.inj (Option.some.inj hlease)
          exact of_decide_eq_true hgood
        | _ => cases hlease
      | _ => cases hlease
    rw [hothers other (htaker ▸ hne)] at hactive
    cases hactive
  · rcases hstep.jobs_cases hactive' with
      ⟨hactive, -⟩ | ⟨job, rfl, rfl, -⟩ | ⟨active, _, _, _, _, -, rfl, rfl, -⟩
    · rw [hothers other hne] at hactive
      cases hactive
    · exact hne (of_decide_eq_true hgood)
    · exact hne (of_decide_eq_true hgood)

/-- Worker `b` acquires the execution while `a`, whose lease has run out, is about to check it; the
check of `a` then changes nothing. -/
theorem takeover_at_check_fenced :
    ∃ events w w' event, Run (FencedStep (trialPlatform (singleStep .transform))) World.initial events w ∧
      HoldsLast (events.filterMap Event.lease) "b" "run" ∧
      WorldStep (trialPlatform (singleStep .transform)) w event w' ∧
      event.writer = some ("a", "run") ∧
      (event.lease = some (.acquire "a" "run" true) ∨
        (w'.db.executions.get? "run" = w.db.executions.get? "run" ∧
          ∀ id, w'.db.steps.get? id = w.db.steps.get? id)) := by
  have hscript : (script (World.act (trialPlatform (singleStep .transform))) World.initial
      (trialStart "a" ++ statements "a" 6 ++ [.tick 20])).any (fun alone =>
        alone.1.all (Event.onlyBy "a") ∧
        (alone.2.act (trialPlatform (singleStep .transform)) (.start (trialJob "b"))).any
          fun started => (started.2.jobs "a").all (fun active => checksFirst active.program) ∧
          started.1.onlyBy "b" ∧ started.1.lease = none ∧
          (started.2.act (trialPlatform (singleStep .transform)) (.statement "b" {})).any
            fun taken => taken.1.lease = some (.acquire "b" "run" true) ∧
            (taken.2.act (trialPlatform (singleStep .transform)) (.statement "a" {})).any
              fun last => last.1.writer = some ("a", "run")) := by
    decide +kernel
  obtain ⟨events, w₁, hrun₁, hevents, hthen⟩ := World.exists_run hscript
  obtain ⟨start, w₂, hstart, hchecks, hby, hnotake, hthen⟩ := World.exists_step hthen
  obtain ⟨taken, w₃, htaken, htake, hthen⟩ := World.exists_step hthen
  obtain ⟨last, w₄, hlast, hwriter⟩ := World.exists_step hthen
  obtain ⟨hrun₁, hothers⟩ := fenced_onlyBy hrun₁ hevents
  have hstarted : FencedStep (trialPlatform (singleStep .transform)) w₁ start w₂ :=
    ⟨hstart, fun _ _ h => absurd (hnotake.symm.trans h) nofun⟩
  have htakes : FencedStep (trialPlatform (singleStep .transform)) w₂ taken w₃ := by
    refine ⟨htaken, fun taker e hlease other active hactive _ hne => ?_⟩
    obtain ⟨rfl, -⟩ := LeaseEvent.acquire.inj (Option.some.inj (htake.symm.trans hlease))
    by_cases ha : other = "a"
    · subst ha
      rw [show w₂.jobs "a" = _ from hactive, Option.all_some] at hchecks
      exact fenced_of_checksFirst hchecks
    · exfalso
      rcases hstarted.1.jobs_cases hactive with
        ⟨hactive, -⟩ | ⟨job, rfl, rfl, -⟩ | ⟨active, _, _, _, _, -, rfl, rfl, -⟩
      · rw [hothers other ha] at hactive
        cases hactive
      · exact hne (of_decide_eq_true hby)
      · exact hne (of_decide_eq_true hby)
  have hrun := (hrun₁.snoc hstarted).snoc htakes
  have hholder : HoldsLast (((events ++ [start]) ++ [taken]).filterMap Event.lease) "b" "run" := by
    rw [List.filterMap_append, List.filterMap_cons, show taken.lease = _ from htake]
    exact .acquired
  exact ⟨_, w₃, w₄, last, hrun, hholder, hlast, hwriter,
    stale_writes_fenced hrun hholder (by decide) hlast hwriter⟩

/-- The handler of `a` takes longer than the lease: `b` has acquired the execution when `a` writes
that the step is completed. -/
theorem stale_completion_written :
    ∃ events w w' event, Run (WorldStep (trialPlatform (singleStep .transform))) World.initial events w ∧
      HoldsLast (events.filterMap Event.lease) "b" "run" ∧
      WorldStep (trialPlatform (singleStep .transform)) w event w' ∧
      event.writer = some ("a", "run") ∧ event.lease = some .write ∧
      stepStatus w onlyStep = some .running ∧ stepStatus w' onlyStep = some .completed := by
  have hscript : (script (World.act (trialPlatform (singleStep .transform))) World.initial
      (leaseRunsOut ++ [.start (trialJob "b")])).any (fun before =>
        before.1.all (fun event => decide (event.lease ≠ some (.acquire "b" "run" true))) ∧
        (before.2.act (trialPlatform (singleStep .transform)) (.statement "b" {})).any fun taken =>
          taken.1.lease = some (.acquire "b" "run" true) ∧
          stepStatus taken.2 onlyStep = some .running ∧
          (taken.2.act (trialPlatform (singleStep .transform)) (.statement "a" {})).any fun last =>
            last.1.writer = some ("a", "run") ∧ last.1.lease = some .write ∧
              stepStatus last.2 onlyStep = some .completed) := by
    decide +kernel
  obtain ⟨events, w₁, hrun, -, hthen⟩ := World.exists_run hscript
  obtain ⟨taken, w₂, htaken, htake, hbefore, hthen⟩ := World.exists_step hthen
  obtain ⟨last, w₃, hlast, hwriter, hlease, hafter⟩ := World.exists_step hthen
  have hholder : HoldsLast ((events ++ [taken]).filterMap Event.lease) "b" "run" := by
    rw [List.filterMap_append, List.filterMap_cons, show taken.lease = _ from htake]
    exact .acquired
  exact ⟨events ++ [taken], w₂, w₃, last, hrun.snoc htaken, hholder, hlast, hwriter, hlease, hbefore,
    hafter⟩

end Flowmind
