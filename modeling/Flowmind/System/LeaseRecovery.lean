import Flowmind.System.Effects

/-!
# What the recovery of leases touches

A pass reads the executions whose lease has run out, with their steps, and then updates one row
after the other.  The update of an execution repeats the condition of the query, but whether it
found the row is not looked at, and the update of a step has no condition at all.  So a row may have
changed since it was read.

* `PassView` — what a pass has read and done.
* `Undisturbed` — a step of others leaves what the pass has read and not yet updated as it was.
* `meets_reconcile` — a pass updates only what it has read, an execution before its steps.
* `recovery_touches_expired_work` — in runs without disturbance a pass changes only running steps,
  of executions that it took from RUNNING after their lease had run out.
* `recovery_reopens_completed_step` — a late write of a worker is a disturbance.
-/

namespace Flowmind

open Program Store

/-! ## What a pass has read and done -/

/-- The time it has read last, the executions it has found with the time of the query, the
executions it has updated, and the steps. -/
structure PassView where
  time : Option ℕ := none
  search : Option (ℕ × List LoadedExecution) := none
  recovered : List String := []
  abandoned : List StepId := []

namespace PassView

/-- The step `row` is one the pass has read as running. -/
def Found (v : PassView) (t : ℕ) (execution : LoadedExecution) (row : StepRow) : Prop :=
  (∃ found, v.search = some (t, found) ∧ execution ∈ found) ∧ row ∈ execution.steps ∧
    row.status = .running

def ok (v : PassView) : RecoveryStatement → Prop
  | .findExpired t => v.time = some t ∧ v.recovered = []
  | .recoverExecution _ t => ∃ found, v.search = some (t, found)
  | .abandonStep row t => ∃ execution, v.Found t execution row ∧
      row.id.executionId = execution.row.id ∧ execution.row.id ∈ v.recovered ∧ row.id ∉ v.abandoned
  | _ => True

/-- What a query returns. -/
def rely : (statement : RecoveryStatement) → RecoveryAnswer statement → Prop
  | .findExpired _, (found : List LoadedExecution) =>
    (found.map (·.row.id)).Nodup ∧ ∀ execution ∈ found, (execution.steps.map (·.id)).Nodup ∧
      ∀ row ∈ execution.steps, row.id.executionId = execution.row.id
  | _, _ => True

def next (v : PassView) : (statement : RecoveryStatement) → RecoveryAnswer statement → PassView
  | .now, (t : ℕ) => { v with time := some t }
  | .findExpired t, (found : List LoadedExecution) => { v with search := some (t, found) }
  | .recoverExecution executionId _, _ => { v with recovered := executionId :: v.recovered }
  | .abandonStep row _, _ => { v with abandoned := row.id :: v.abandoned }
  | _, _ => v

end PassView

/-- A pass updates what it has read: an execution before its steps, and a step once. -/
def passProtocol : Protocol RecoveryStatement RecoveryAnswer PassView where
  ok := PassView.ok
  rely := PassView.rely
  next := PassView.next

def ActivePass.view (active : ActivePass) : PassView := passProtocol.after {} active.log

/-! ## A pass keeps to the protocol -/

variable {v : PassView} {t : ℕ}

section Meets

variable {found : List LoadedExecution} {execution : LoadedExecution}

section

variable (hsearch : v.search = some (t, found)) (hmem : execution ∈ found)
include hsearch hmem

/-- The running steps of an execution, one after the other. -/
lemma meets_abandonSteps (hrecovered : execution.row.id ∈ v.recovered) {steps : List StepRow}
    (hsteps : ∀ row ∈ steps, row ∈ execution.steps ∧ row.status = .running)
    (howner : ∀ row ∈ execution.steps, row.id.executionId = execution.row.id)
    (hnodup : (steps.map (·.id)).Nodup) (hfresh : ∀ row ∈ steps, row.id ∉ v.abandoned) :
    Meets passProtocol
      (fun v' _ => v'.search = v.search ∧
        ∀ id ∈ v'.abandoned, id ∈ v.abandoned ∨ ∃ row ∈ execution.steps, row.id = id)
      (fun _ _ => False) (Prog.each (fun row => Recovery.ask (.abandonStep row t)) steps) v := by
  -- The rows that are left have not been abandoned yet, since their identities differ.
  refine (Meets.each (fun left v' => (∀ row ∈ left, row ∈ execution.steps ∧ row.status = .running) ∧
    (left.map (·.id)).Nodup ∧ (∀ row ∈ left, row.id ∉ v'.abandoned) ∧ v'.search = v.search ∧
    v'.recovered = v.recovered ∧
    ∀ id ∈ v'.abandoned, id ∈ v.abandoned ∨ ∃ row ∈ execution.steps, row.id = id)
    ?_ steps v ⟨hsteps, hnodup, hfresh, rfl, rfl, fun _ => .inl⟩).mono
    (fun _ _ h => ⟨h.2.2.2.1, h.2.2.2.2.2⟩) (fun _ _ h => h)
  rintro row left v' ⟨hrows, hids, hnew, hsame, hsame', habandoned⟩
  rw [List.map_cons, List.nodup_cons] at hids
  have hrow := hrows row (by simp)
  refine .perform ⟨execution, ⟨⟨found, hsame.trans hsearch, hmem⟩, hrow⟩, howner row hrow.1,
    hsame' ▸ hrecovered, hnew row (by simp)⟩ fun _ _ => ?_
  refine ⟨fun r hr => hrows r (by simp [hr]), hids.2, fun r hr => ?_, hsame, hsame', fun id hid => ?_⟩
  · have hne : r.id ≠ row.id := fun heq => hids.1 (heq ▸ List.mem_map_of_mem hr)
    simpa [passProtocol, PassView.next, hne] using hnew r (by simp [hr])
  · rcases List.mem_cons.mp hid with rfl | hid
    · exact .inr ⟨row, hrow.1, rfl⟩
    · exact habandoned id hid

/-- One execution of those that were found. -/
lemma meets_recoverOne (hnodup : (execution.steps.map (·.id)).Nodup)
    (howner : ∀ row ∈ execution.steps, row.id.executionId = execution.row.id)
    (hfresh : ∀ row ∈ execution.steps, row.id ∉ v.abandoned) :
    Meets passProtocol
      (fun v' _ => v'.search = v.search ∧
        ∀ id ∈ v'.abandoned, id ∈ v.abandoned ∨ ∃ row ∈ execution.steps, row.id = id)
      (fun _ _ => False) (Recovery.recoverOne t execution) v := by
  refine Meets.step ⟨found, hsearch⟩ fun _ _ => ?_
  refine Meets.bind ?_ (meets_abandonSteps
    (v := { v with recovered := execution.row.id :: v.recovered }) hsearch hmem (by simp)
    (fun row hrow => ?_) howner
    (hnodup.sublist (List.filter_sublist.map _)) fun row hrow => hfresh row (List.mem_filter.mp hrow).1)
  · intro v' _ hv'
    exact .perform trivial fun _ _ => hv'
  · exact ⟨(List.mem_filter.mp hrow).1, by simpa using (List.mem_filter.mp hrow).2⟩

end

lemma meets_recoverExpiredRunning :
    Meets passProtocol (fun _ _ => True) (fun _ _ => False) Recovery.recoverExpiredRunning {} := by
  refine Meets.step trivial fun (t : ℕ) _ => ?_
  refine Meets.step ⟨rfl, rfl⟩ fun (found : List LoadedExecution) ⟨hnodup, hfound⟩ => ?_
  -- No step of an execution that is left has been abandoned: steps know their execution.
  refine (Meets.each (fun left v => v.search = some (t, found) ∧ (∀ x ∈ left, x ∈ found) ∧
    (left.map (·.row.id)).Nodup ∧ ∀ x ∈ left, ∀ id ∈ v.abandoned, id.executionId ≠ x.row.id)
    ?_ found _ ⟨rfl, fun _ => id, hnodup, by simp [passProtocol, PassView.next]⟩).mono
      (fun _ _ _ => trivial) (fun _ _ h => h)
  rintro execution left v ⟨hsearch, hleft, hids, hfresh⟩
  rw [List.map_cons, List.nodup_cons] at hids
  have hmem := hleft execution (by simp)
  refine (meets_recoverOne hsearch hmem (hfound execution hmem).1 (hfound execution hmem).2
    fun row hrow hid => hfresh execution (by simp) row.id hid
      ((hfound execution hmem).2 row hrow)).mono ?_ fun _ _ h => h
  rintro v' _ ⟨hsame, habandoned⟩
  refine ⟨hsame.trans hsearch, fun x hx => hleft x (by simp [hx]), hids.2, fun x hx id hid => ?_⟩
  rcases habandoned id hid with hold | ⟨row, hrow, rfl⟩
  · exact hfresh x (by simp [hx]) id hold
  · rw [(hfound execution hmem).2 row hrow]
    exact fun heq => hids.1 (List.mem_map.mpr ⟨x, hx, heq.symm⟩)

/-- The other parts of a pass make statements that are always allowed. -/
def Free (program : Recovery Unit) : Prop :=
  ∀ v, Meets passProtocol (fun _ _ => True) (fun _ _ => False) program v

variable {statement : RecoveryStatement}

lemma free_ask {f : RecoveryAnswer statement → Recovery Unit} (hok : ∀ v, PassView.ok v statement)
    (hf : ∀ answer, Free (f answer)) : Free ((Recovery.ask statement).bind f) :=
  fun v => .step (hok v) fun answer _ => hf answer _

lemma free_bind {first second : Recovery Unit} (hfirst : Free first) (hsecond : Free second) :
    Free (first.bind fun _ => second) :=
  fun v => Meets.bind (fun v' _ _ => hsecond v') (hfirst v)

lemma free_each {τ : Type} {body : τ → Recovery Unit} {items : List τ}
    (h : ∀ item, Free (body item)) : Free (Prog.each body items) :=
  fun v => Meets.each (fun _ _ => True) (fun item _ v' _ => h item v') items v trivial

lemma free_enqueue (id : JobId) : Free (Recovery.ask (.enqueue id)) :=
  fun _ => .perform trivial fun _ _ => trivial

lemma free_recoverApprovals : Free Recovery.recoverApprovals := by
  refine free_ask (fun _ => trivial) fun t => free_ask (fun _ => trivial) fun expired =>
    free_bind (free_each fun approval => free_ask (fun _ => trivial) fun (won : Bool) => ?_)
      (free_ask (fun _ => trivial) fun stranded => free_each fun approval =>
        free_ask (fun _ => trivial) fun _ => free_enqueue _)
  cases won with
  | true => exact free_enqueue _
  | false => exact fun _ => trivial

lemma free_requeueDueRetries : Free Recovery.requeueDueRetries :=
  free_ask (fun _ => trivial) fun _ => free_ask (fun _ => trivial) fun _ =>
    free_each fun _ => free_ask (fun _ => trivial) fun _ => free_enqueue _

lemma free_recoverPendingDispatches (grace : ℕ) : Free (Recovery.recoverPendingDispatches grace) :=
  free_ask (fun _ => trivial) fun _ => free_ask (fun _ => trivial) fun _ =>
    free_each fun _ => free_enqueue _

lemma free_requeueQueuedExecutions : Free Recovery.requeueQueuedExecutions :=
  free_ask (fun _ => trivial) fun _ => free_ask (fun _ => trivial) fun _ =>
    free_each fun _ => free_enqueue _

/-- **A pass keeps to the protocol.** -/
lemma meets_reconcile (grace : ℕ) :
    Meets passProtocol (fun _ _ => True) (fun _ _ => False) (Recovery.reconcile grace) {} :=
  Meets.bind (fun v _ _ => free_bind free_recoverApprovals (free_bind free_requeueDueRetries
    (free_bind (free_recoverPendingDispatches grace) free_requeueQueuedExecutions)) v)
    meets_recoverExpiredRunning

/-- The answers of the database are as the protocol assumes. -/
lemma passRely_perform {answer : RecoveryAnswer statement} {clock : ℕ} {oracle : RecoveryOracle}
    {db db' : Database} (h : statement.perform clock oracle db = (answer, db')) :
    passProtocol.rely statement answer := by
  cases statement with
  | findExpired t =>
    obtain ⟨rfl, -⟩ := Prod.mk.inj h
    constructor
    · rw [List.map_map]
      exact db.executions.nodup.sublist
        (((List.take_sublist _ _).trans List.filter_sublist).map ExecutionRow.id)
    · rintro _ hmem
      obtain ⟨row, -, rfl⟩ := List.mem_map.mp hmem
      refine ⟨db.steps.nodup.sublist (List.filter_sublist.map _), fun step hstep => ?_⟩
      simpa using (List.mem_filter.mp hstep).2
  | _ => trivial

end Meets

/-! ## Runs without disturbance -/

/-- The execution is running on a lease that has run out. -/
def Lapsed (db : Database) (t : ℕ) (executionId : String) : Prop :=
  ∃ row, db.executions.get? executionId = some row ∧ expiredRunning t row = true

/-- The step is running. -/
def StillRunning (db : Database) (id : StepId) : Prop :=
  ∃ row, db.steps.get? id = some row ∧ row.status = .running

/-- What the pass has read and not updated yet stays as the query found it. -/
structure Undisturbed (v : PassView) (db db' : Database) : Prop where
  executions : ∀ {t found execution}, v.search = some (t, found) → execution ∈ found →
    execution.row.id ∉ v.recovered → Lapsed db t execution.row.id → Lapsed db' t execution.row.id
  steps : ∀ {t execution row}, v.Found t execution row → row.id ∉ v.abandoned →
    StillRunning db row.id → StillRunning db' row.id

/-- A step of the world that disturbs no pass but the one that makes it. -/
def QuietStep (p : Platform) (w : World) (event : Event) (w' : World) : Prop :=
  WorldStep p w event w' ∧ ∀ worker active, w.passes worker = some active →
    (∀ statement answer, event ≠ .passStatement worker statement answer) →
    Undisturbed active.view w.db w'.db

/-- The pass of the worker has moved the execution out of RUNNING, at a time when its lease had run
out. -/
def MovedOut (p : Platform) (events : List Event) (worker executionId : String) : Prop :=
  ∃ before after w w' t row until_, events =
      before ++ .passStatement worker (.recoverExecution executionId t) (1 : ℕ) :: after ∧
    .startPass worker ∉ after ∧
    Run (WorldStep p) World.initial before w ∧
    WorldStep p w (.passStatement worker (.recoverExecution executionId t) (1 : ℕ)) w' ∧
    w.db.executions.get? executionId = some row ∧ row.status = .running ∧
    row.lockedUntil = some until_ ∧ until_ < w.clock ∧
    w'.db.executions.get? executionId =
      some { row with status := .queued, lockedBy := none, lockedUntil := none }

lemma MovedOut.snoc {p : Platform} {events : List Event} {worker executionId : String} {event : Event}
    (h : MovedOut p events worker executionId) (hevent : event ≠ .startPass worker) :
    MovedOut p (events ++ [event]) worker executionId := by
  obtain ⟨before, after, w, w', t, row, until_, rfl, hafter, rest⟩ := h
  refine ⟨before, after ++ [event], w, w', t, row, until_, by simp, ?_, rest⟩
  simpa [hafter] using hevent.symm

/-- What is known of a pass, from its view. -/
structure PassView.Holds (p : Platform) (events : List Event) (w : World) (worker : String)
    (v : PassView) : Prop where
  time : ∀ {t}, v.time = some t → t ≤ w.clock
  searched : ∀ {t found}, v.search = some (t, found) → t ≤ w.clock
  lapsed : ∀ {t found execution}, v.search = some (t, found) → execution ∈ found →
    execution.row.id ∉ v.recovered → Lapsed w.db t execution.row.id
  moved : ∀ {t found execution}, v.search = some (t, found) → execution ∈ found →
    execution.row.id ∈ v.recovered → MovedOut p events worker execution.row.id
  running : ∀ {t execution row}, v.Found t execution row → row.id ∉ v.abandoned →
    StillRunning w.db row.id

variable {p : Platform} {events : List Event}

section Holds

variable {event : Event} {w w' : World} {worker : String} {clock : ℕ} {db : Database}
  {oracle : RecoveryOracle} {e : String}

/-- A step of somebody else. -/
lemma PassView.Holds.other (h : v.Holds p events w worker) (hclock : w.clock ≤ w'.clock)
    (hquiet : Undisturbed v w.db w'.db) (hevent : event ≠ .startPass worker) :
    v.Holds p (events ++ [event]) w' worker where
  time ht := (h.time ht).trans hclock
  searched hs := (h.searched hs).trans hclock
  lapsed hs hmem hnot := hquiet.executions hs hmem hnot (h.lapsed hs hmem hnot)
  moved hs hmem hrec := (h.moved hs hmem hrec).snoc hevent
  running hfound hnot := hquiet.steps hfound hnot (h.running hfound hnot)

lemma status_of_expiredRunning {row : ExecutionRow} (h : expiredRunning t row = true) :
    row.status = .running := by
  simp only [expiredRunning, Bool.and_eq_true, decide_eq_true_eq] at h
  exact h.1

/-- An update that is not made for running executions. -/
lemma Lapsed.updateExecutions {where_ : ExecutionRow → Bool} {data : ExecutionRow → ExecutionRow}
    {hid : ∀ row, (data row).id = row.id} (h : Lapsed db t e)
    (hwhere : ∀ row, row.status = .running → where_ row = true → row.id ≠ e) :
    Lapsed (db.updateExecutions where_ data hid) t e := by
  obtain ⟨row, hrow, hexp⟩ := h
  refine ⟨row, ?_, hexp⟩
  rw [Database.get?_updateExecutions_of_not, hrow]
  intro row' hrow'
  rw [hrow] at hrow'
  cases hrow'
  exact Bool.eq_false_iff.mpr fun hw =>
    hwhere row (status_of_expiredRunning hexp) hw (Database.id_of_get? hrow)

/-- Other statements of a pass do not touch executions that are running on a lapsed lease. -/
lemma Lapsed.perform {statement : RecoveryStatement} (h : Lapsed db t e)
    (hother : ∀ t', statement ≠ .recoverExecution e t') :
    Lapsed (statement.perform clock oracle db).2 t e := by
  cases statement with
  | recoverExecution e' t' =>
    refine h.updateExecutions fun row _ hw hid => hother t' ?_
    simp only [Bool.and_eq_true, decide_eq_true_eq] at hw
    rw [← hw.1, hid]
  | expireApproval approval t' =>
    simp only [RecoveryStatement.perform]
    split
    · exact h
    · refine Lapsed.updateExecutions ?_ fun row hrunning hw => by simp [hrunning] at hw
      exact h
  | resumeApproved e' => exact h.updateExecutions fun row hrunning hw => by simp [hrunning] at hw
  | requeue e' => exact h.updateExecutions fun row hrunning hw => by simp [hrunning] at hw
  | _ => exact h

lemma StillRunning.perform {statement : RecoveryStatement} {id : StepId} (h : StillRunning db id)
    (hother : ∀ row t', statement = .abandonStep row t' → row.id ≠ id) :
    StillRunning (statement.perform clock oracle db).2 id := by
  obtain ⟨row, hrow, hrunning⟩ := h
  refine ⟨row, ?_, hrunning⟩
  rw [RecoveryStatement.get?_perform, hrow]
  cases statement with
  | abandonStep row' t' => exact if_neg fun hid => hother row' t' rfl hid.symm
  | _ => rfl

/-- The executions that a query finds. -/
lemma lapsed_of_mem_findExpired {found : List LoadedExecution} {db' : Database}
    (hfound : (RecoveryStatement.findExpired t).perform clock oracle db = (found, db'))
    {execution : LoadedExecution} (h : execution ∈ found) :
    Lapsed db t execution.row.id ∧ execution.steps = db.stepsOf execution.row.id := by
  obtain ⟨rfl, -⟩ := Prod.mk.inj hfound
  obtain ⟨row, hrow, rfl⟩ := List.mem_map.mp h
  obtain ⟨hmem, hwhere⟩ := List.mem_filter.mp (List.mem_of_mem_take hrow)
  rw [Bool.and_eq_true] at hwhere
  exact ⟨⟨row, Table.get?_eq_some_iff.mpr ⟨hmem, rfl⟩, hwhere.1⟩, rfl⟩

/-- The update of an execution that is running on a lapsed lease, and how it is counted. -/
lemma Lapsed.recoverExecution (h : Lapsed db t e) :
    ∃ row until_, db.executions.get? e = some row ∧ row.status = .running ∧
      row.lockedUntil = some until_ ∧ until_ < t ∧
      ((RecoveryStatement.recoverExecution e t).perform clock oracle db).1 = (1 : ℕ) ∧
      ((RecoveryStatement.recoverExecution e t).perform clock oracle db).2.executions.get? e =
        some { row with status := .queued, lockedBy := none, lockedUntil := none } := by
  obtain ⟨row, hrow, hexp⟩ := h
  have hwhere : (decide (row.id = e) && expiredRunning t row) = true := by
    simp [Database.id_of_get? hrow, hexp]
  have huntil := hexp
  simp only [expiredRunning, Bool.and_eq_true, Option.any_eq_true, decide_eq_true_eq] at huntil
  obtain ⟨hrunning, until_, hlocked, hlt⟩ := huntil
  refine ⟨row, until_, hrow, hrunning, hlocked, hlt, ?_, ?_⟩
  · refine (Database.count_eq_one_iff fun row' h' => ?_).mpr ⟨row, hrow, hwhere⟩
    simp only [Bool.and_eq_true, decide_eq_true_eq] at h'
    exact h'.1
  · rw [RecoveryStatement.perform, recoverLease, Database.get?_updateExecutions, hrow, Option.map_some,
      if_pos hwhere]

/-- A statement of the pass itself. -/
lemma PassView.Holds.own {statement : RecoveryStatement} {answer : RecoveryAnswer statement}
    (h : v.Holds p events w worker) (hok : v.ok statement)
    (hrun : Run (WorldStep p) World.initial events w)
    (hstep : WorldStep p w (.passStatement worker statement answer) w')
    (hperform : statement.perform w.clock oracle w.db = (answer, w'.db))
    (hclock : w'.clock = w.clock) :
    (v.next statement answer).Holds p (events ++ [.passStatement worker statement answer]) w' worker := by
  have hdb : w'.db = (statement.perform w.clock oracle w.db).2 := by rw [hperform]
  -- Most statements leave what was found alone.
  have hkeep : (∀ e t, statement ≠ .recoverExecution e t) → (∀ row t, statement ≠ .abandonStep row t) →
      v.Holds p (events ++ [.passStatement worker statement answer]) w' worker := by
    intro hrecover habandon
    refine h.other hclock.ge ⟨fun _ _ _ hlapsed => ?_, fun _ _ hrunning => ?_⟩ (by simp)
    · rw [hdb]
      exact hlapsed.perform fun t' => hrecover _ t'
    · rw [hdb]
      exact hrunning.perform fun row t heq => absurd heq (habandon row t)
  cases statement with
  | now =>
    refine { hkeep (by simp) (by simp) with time := fun {t} ht => ?_ }
    obtain rfl : answer = t := Option.some.inj ht
    rw [hclock, ← (Prod.mk.inj hperform).1]
    exact Nat.sub_le _ _
  | findExpired t =>
    have hkept := hkeep (by simp) (by simp)
    refine ⟨hkept.time, ?_, ?_, ?_, ?_⟩
    · rintro t' found hs
      cases hs
      exact hkept.time hok.1
    · rintro t' found execution hs hmem -
      cases hs
      rw [hdb]
      exact (lapsed_of_mem_findExpired hperform hmem).1
    · rintro t' found execution hs hmem hrec
      rw [show (v.next (.findExpired t) answer).recovered = [] from hok.2] at hrec
      cases hrec
    · rintro t' execution row ⟨⟨found, hs, hmem⟩, hrow, hrunning⟩ -
      cases hs
      rw [(lapsed_of_mem_findExpired hperform hmem).2] at hrow
      rw [hdb]
      exact ⟨row, Table.get?_eq_some_iff.mpr ⟨(List.mem_filter.mp hrow).1, rfl⟩, hrunning⟩
  | recoverExecution e t =>
    obtain ⟨found, hsearch⟩ := hok
    refine ⟨fun ht => hclock ▸ h.time ht, fun hs => hclock ▸ h.searched hs, ?_, ?_, ?_⟩
    · intro t' found' execution hs hmem hnot
      obtain ⟨hne, hnot⟩ := not_or.mp fun hor => hnot (List.mem_cons.mpr hor)
      rw [hdb]
      exact (h.lapsed hs hmem hnot).perform fun t'' heq =>
        hne (RecoveryStatement.recoverExecution.inj heq).1.symm
    · intro t' found' execution hs hmem hrec
      by_cases hbefore : execution.row.id ∈ v.recovered
      · exact (h.moved hs hmem hbefore).snoc (by simp)
      · -- It is this statement that moves the execution.
        obtain rfl : execution.row.id = e := (List.mem_cons.mp hrec).resolve_right hbefore
        obtain ⟨rfl, -⟩ := Prod.mk.inj (Option.some.inj (hs.symm.trans hsearch))
        obtain ⟨row, until_, hrow, hrunning, hlocked, hlt, hcount, hafter⟩ :=
          (h.lapsed hs hmem hbefore).recoverExecution
        rw [hperform] at hcount hafter
        obtain rfl : answer = (1 : ℕ) := hcount
        exact ⟨events, [], w, w', t', row, until_, rfl, by simp, hrun, hstep, hrow, hrunning, hlocked,
          hlt.trans_le (h.searched hs), hafter⟩
    · intro t' execution row hfound hnot
      rw [hdb]
      exact (h.running hfound hnot).perform (by simp)
  | abandonStep row t =>
    refine ⟨fun ht => hclock ▸ h.time ht, fun hs => hclock ▸ h.searched hs, ?_,
      fun hs hmem hrec => (h.moved hs hmem hrec).snoc (by simp), ?_⟩
    · intro t' found' execution hs hmem hnot
      rw [hdb]
      exact (h.lapsed hs hmem hnot).perform (by simp)
    · intro t' execution row' hfound hnot
      obtain ⟨hne, hnot⟩ := not_or.mp fun hor => hnot (List.mem_cons.mpr hor)
      rw [hdb]
      refine (h.running hfound hnot).perform fun row'' t'' heq => ?_
      obtain ⟨rfl, -⟩ := RecoveryStatement.abandonStep.inj heq
      exact fun hid => hne hid.symm
  | _ => exact hkeep (by simp) (by simp)

/-- In a run without disturbance everything that a pass has read is as it was read. -/
lemma WorldRun.passHolds (hrun : Run (QuietStep p) World.initial events w) {active : ActivePass}
    (hactive : w.passes worker = some active) : active.view.Holds p events w worker := by
  refine hrun.invariant (fun events w => ∀ worker active, w.passes worker = some active →
    active.view.Holds p events w worker) (fun _ _ h => by cases h) ?_ worker active hactive
  intro events w event w' hrun ih hquiet worker active' hactive'
  have hbefore : Run (WorldStep p) World.initial events w := hrun.mono fun _ _ _ h => h.1
  rcases hquiet.1.passes_cases hactive' with
    ⟨hactive, hstart, hother⟩ | ⟨-, rfl⟩ |
      ⟨active, statement, k, answer, oracle, hactive, rfl, hprogram, hperform, hclock, rfl⟩
  · exact (ih worker active' hactive).other hquiet.1.clock_le (hquiet.2 worker active' hactive hother)
      hstart
  · -- A pass that begins has read nothing.
    constructor <;> (intros; simp_all [ActivePass.view, PassView.Found])
  · have hmeets := ((WorldRun.valid hbefore).passes hactive).meets
      (meets_reconcile p.pendingDispatchGraceMs) passRely_perform
    rw [hprogram] at hmeets
    have hview : (active.next (k answer) statement answer).view = active.view.next statement answer :=
      Protocol.after_snoc ..
    rw [hview]
    exact (ih worker active hactive).own hmeets.1 hbefore hquiet.1 hperform hclock

end Holds

/-- **Recovery touches only work whose lease has run out.**  In a run whose steps do not disturb the
passes, a step execution that a pass changes is running at that moment, and belongs to an execution
that the same pass has moved out of RUNNING when its lease had run out. -/
theorem recovery_touches_expired_work {p : Platform} {events : List Event} {w w' : World}
    {worker : String} {statement : RecoveryStatement} {answer : RecoveryAnswer statement} {id : StepId}
    (hrun : Run (QuietStep p) World.initial events w)
    (hstep : WorldStep p w (.passStatement worker statement answer) w')
    (hchanged : w'.db.steps.get? id ≠ w.db.steps.get? id) :
    StillRunning w.db id ∧ MovedOut p events worker id.executionId := by
  have hvalid := WorldRun.valid (hrun.mono fun _ _ _ h => h.1)
  have heffect : w'.db.steps.get? id = statement.onStep id (w.db.steps.get? id) := hstep.get?_steps
  rw [heffect] at hchanged
  cases hstep with
  | @passStatement _ active _ k _ db oracle hactive hprogram hperform =>
    have hmeets := (hvalid.passes hactive).meets
      (meets_reconcile p.pendingDispatchGraceMs) passRely_perform
    rw [hprogram] at hmeets
    have hholds := WorldRun.passHolds hrun hactive
    cases statement with
    | abandonStep row t =>
      obtain ⟨execution, hfound, howner, hrecovered, hnot⟩ := hmeets.1
      obtain rfl : id = row.id := by
        by_contra hne
        exact hchanged (if_neg hne)
      obtain ⟨found, hsearch, hmem⟩ := hfound.1
      exact ⟨hholds.running hfound hnot, howner ▸ hholds.moved hsearch hmem hrecovered⟩
    | _ => exact absurd rfl hchanged

/-! ## A run with and one without disturbance -/

/-- Worker `q` begins a pass: it reads the clock, finds the execution and updates it. -/
def passUntilStep : List Action :=
  [.startPass "q", .passStatement "q" {}, .passStatement "q" { executions := ["run"] },
    .passStatement "q" {}]

/-- The event belongs to the pass of a worker. -/
def Event.ofPass (worker : String) : Event → Bool
  | .startPass started => decide (started = worker)
  | .passStatement own _ _ => decide (own = worker)
  | _ => false

/-- The event is not of a pass. -/
def Event.outsidePasses : Event → Bool
  | .startPass _ | .passStatement .. => false
  | _ => true

/-- Without passes there is nothing to disturb. -/
lemma quiet_outsidePasses {w : World} (hrun : Run (WorldStep p) World.initial events w)
    (hevents : events.all Event.outsidePasses = true) :
    Run (QuietStep p) World.initial events w ∧ ∀ worker, w.passes worker = none := by
  refine hrun.mono_invariant (fun w => ∀ worker, w.passes worker = none)
    (fun event => event.outsidePasses = true) ?_ (fun _ => rfl)
    fun event hmem => List.all_eq_true.mp hevents event hmem
  intro w event w' hnone hgood hstep
  refine ⟨⟨hstep, fun worker active hactive => by rw [hnone worker] at hactive; cases hactive⟩,
    fun worker => Option.eq_none_iff_forall_ne_some.mpr fun active' hactive' => ?_⟩
  rcases hstep.passes_cases hactive' with
    ⟨hactive, -⟩ | ⟨rfl, -⟩ | ⟨active, statement, k, answer, oracle, -, rfl, -⟩
  · rw [hnone worker] at hactive
    cases hactive
  · cases hgood
  · cases hgood

/-- A pass that is alone disturbs nobody. -/
lemma quiet_ofPass {w w' : World} {worker : String} (hrun : Run (WorldStep p) w events w')
    (hnone : ∀ other, w.passes other = none) (hevents : events.all (Event.ofPass worker) = true) :
    Run (QuietStep p) w events w' := by
  refine (hrun.mono_invariant (fun w => ∀ other, other ≠ worker → w.passes other = none)
    (fun event => event.ofPass worker = true) ?_ (fun other _ => hnone other)
    fun event hmem => List.all_eq_true.mp hevents event hmem).1
  intro w event w' hothers hgood hstep
  refine ⟨⟨hstep, fun other active hactive hnot => ?_⟩, fun other hne =>
    Option.eq_none_iff_forall_ne_some.mpr fun active' hactive' => ?_⟩
  · by_cases hne : other = worker
    · subst hne
      -- The pass is there already, so this is not its beginning but a statement of its own.
      cases hstep with
      | startPass hidle =>
        rw [Event.ofPass, decide_eq_true_eq] at hgood
        rw [← hgood, hidle] at hactive
        cases hactive
      | passStatement oracle hown hprogram hperform =>
        rw [Event.ofPass, decide_eq_true_eq] at hgood
        subst hgood
        exact absurd rfl (hnot _ _)
      | _ => cases hgood
    · rw [hothers other hne] at hactive
      cases hactive
  · rcases hstep.passes_cases hactive' with
      ⟨hactive, -⟩ | ⟨rfl, -⟩ | ⟨active, statement, k, answer, oracle, -, rfl, -⟩
    · rw [hothers other hne] at hactive
      cases hactive
    · exact hne (of_decide_eq_true hgood)
    · exact hne (of_decide_eq_true hgood)

/-- Worker `a` crashes; the pass of `q` moves its execution out of RUNNING and then changes the
step, which is running. -/
theorem recovery_after_crash :
    ∃ events w w' worker statement answer,
      Run (QuietStep (trialPlatform (singleStep .transform))) World.initial events w ∧
      WorldStep (trialPlatform (singleStep .transform)) w (.passStatement worker statement answer) w' ∧
      StillRunning w.db onlyStep ∧
      MovedOut (trialPlatform (singleStep .transform)) events worker onlyStep.executionId := by
  have hscript : (script (World.act (trialPlatform (singleStep .transform))) World.initial
      (leaseRunsOut ++ [.stop "a"])).any (fun crashed => crashed.1.all Event.outsidePasses ∧
        (script (World.act (trialPlatform (singleStep .transform))) crashed.2 passUntilStep).any
          fun passed => passed.1.all (Event.ofPass "q") ∧
          (passed.2.act (trialPlatform (singleStep .transform)) (.passStatement "q" {})).any
            fun last => stepStatus passed.2 onlyStep ≠ stepStatus last.2 onlyStep) := by
    decide +kernel
  obtain ⟨events₁, w₁, hrun₁, hout, hthen⟩ := World.exists_run hscript
  obtain ⟨events₂, w₂, hrun₂, hpass, hthen⟩ := World.exists_run hthen
  obtain ⟨⟨event, w'⟩, hact, hchanged⟩ := (Option.any_eq_true _ _).mp hthen
  obtain ⟨hrun₁, hnone⟩ := quiet_outsidePasses hrun₁ hout
  have hrun := hrun₁.append (quiet_ofPass hrun₂ hnone hpass)
  have hstep := World.act_sound hact
  simp only [World.act] at hact
  split at hact
  case h_1 statement k log hactive =>
    cases hact
    have hdiffer : w₂.db.steps.get? onlyStep ≠ _ := fun heq =>
      of_decide_eq_true hchanged (congrArg (Option.map StepRow.status) heq)
    exact ⟨_, w₂, _, "q", statement, _, hrun, hstep,
      recovery_touches_expired_work hrun hstep hdiffer.symm⟩
  case h_2 => cases hact

/-- `a` is only slow: between the update of the execution and that of the step it completes the
step, and the pass turns COMPLETED into RETRYING. -/
theorem recovery_reopens_completed_step :
    ∃ events w event w', Run (WorldStep (trialPlatform (singleStep .transform))) World.initial events w ∧
      WorldStep (trialPlatform (singleStep .transform)) w event w' ∧ event.ofPass "q" = true ∧
      stepStatus w onlyStep = some .completed ∧ stepStatus w' onlyStep = some .retrying := by
  have hscript : (script (World.act (trialPlatform (singleStep .transform))) World.initial
      (leaseRunsOut ++ passUntilStep ++ statements "a" 1)).any (fun done =>
        stepStatus done.2 onlyStep = some .completed ∧
        (done.2.act (trialPlatform (singleStep .transform)) (.passStatement "q" {})).any fun last =>
          last.1.ofPass "q" ∧ stepStatus last.2 onlyStep = some .retrying) := by
    decide +kernel
  obtain ⟨events, w, hrun, hbefore, hthen⟩ := World.exists_run hscript
  obtain ⟨event, w', hstep, hpass, hafter⟩ := World.exists_step hthen
  exact ⟨events, w, event, w', hrun, hstep, hpass, hbefore, hafter⟩

end Flowmind
