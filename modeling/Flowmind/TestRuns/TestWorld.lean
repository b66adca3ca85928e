import Flowmind.InternalEvents.Emitter
import Flowmind.System.Effects
import Flowmind.TestRuns.Policy

/-!
# Test runs and internal events in the system

To the workers, the reconcilers and the API this module adds the table of test runs, and the
internal events with the executions that triggers start for them.

* `emitted` — the internal events of a step of the world.  Approvals emit theirs in every mode, the
  end of an execution only outside of tests.
* `TestStep` — a step: one of the world, in which the policy of test runs decides about handlers;
  the creation of a test run with its execution; the creation of an execution for an event.
* `Consequence` — the executions that are there because of another one: its children, and those that
  its events have triggered.
* `TestWorld.act` executes one step of a script.
-/

namespace Flowmind.TestRuns

open Program Store
open InternalEvents (EventType)

/-! ## Internal events -/

/-- An internal event, and the execution that has emitted it. -/
structure InternalEvent where
  type : EventType
  executionId : String
deriving DecidableEq, Repr

/-- What a handler has done to a record of a data store. -/
inductive RecordChange where
  | created | updated | deleted
deriving DecidableEq, Repr

/-- The event of a change. -/
def recordEvent : StepType → RecordChange → Option EventType
  | .dataStoreUpsertRecord, .created => some .dataStoreRecordCreated
  | .dataStoreUpsertRecord, .updated => some .dataStoreRecordUpdated
  | .dataStoreDeleteRecord, .deleted => some .dataStoreRecordDeleted
  | _, _ => none

lemma isEffectStep_of_recordEvent {type : StepType} {change : RecordChange}
    {emitted : EventType} (h : recordEvent type change = some emitted) :
    isEffectStep type = true := by
  unfold recordEvent at h
  split at h <;> first | rfl | cases h

/-- The internal events that a step of the world emits; `change` is what the handler of a data store
has done, if it is invoked.  An approval keeps its execution. -/
def emitted (w : World) (change : Option RecordChange) : Event → List InternalEvent
  | .api (.requestApproval approval) =>
    if (w.db.approvals.get? approval.stepExecutionId).isNone then
      [⟨.approvalRequested, approval.executionId⟩]
    else []
  | .api (.decideApproval stepExecutionId approved) =>
    ((w.db.approvals.get? stepExecutionId).filter fun approval =>
      Decidable.decide (approval.status = .pending) && !approvalExpired w.clock approval).toList.map
        fun approval =>
          ⟨if approved then .approvalApproved else .approvalRejected, approval.executionId⟩
  | .passStatement _ (.expireApproval approval now) _ =>
    ((w.db.approvals.get? approval.stepExecutionId).filter (approvalExpired now)).toList.map
      fun approval => ⟨.approvalExpired, approval.executionId⟩
  | .statement job (.transitionTerminal failure _) (changed : ℕ) =>
    ((w.db.executions.get? job.executionId).filter fun row =>
      Decidable.decide (changed = 1) && Decidable.decide (row.executionMode ≠ .test)).toList.map
        fun _ => ⟨if failure.isSome then .executionFailed else .executionCompleted, job.executionId⟩
  | .api (.dispatchFailed executionId) =>
    -- Only webhooks do this, and what they create is no test.
    ((w.db.executions.get? executionId).filter fun row =>
      (Decidable.decide (row.status = .pending) || Decidable.decide (row.status = .queued)) &&
        Decidable.decide (row.executionMode ≠ .test)).toList.map
        fun _ => ⟨.executionFailed, executionId⟩
  | .statement job (.invoke _ _ step _ _) _ =>
    (change.bind (recordEvent step.type)).toList.map fun type => ⟨type, job.executionId⟩
  | _ => []

/-- Where an internal event comes from: an approval, the end of an execution that is no test, or a
handler that has changed a record. -/
inductive EmittedBy (w : World) (event : Event) (internal : InternalEvent) : Prop where
  | approval (htype : internal.type.isApproval = true)
  | ended {row : ExecutionRow} (hfound : w.db.executions.get? internal.executionId = some row)
      (hmode : row.executionMode ≠ .test)
  | invoked {job : Job} {context : ContextId} {row : StepRow} {step : StepDefinition} {attempt : ℕ}
      {config : Json} {answer : Except Failure StepResult}
      (heq : event = .statement job (.invoke context row step attempt config) answer)
      (heffect : isEffectStep step.type = true) (hid : job.executionId = internal.executionId)

lemma mem_toList_map {α β : Type*} {found : Option α} {f : α → β} {b : β}
    (h : b ∈ found.toList.map f) : ∃ a, found = some a ∧ b = f a := by
  obtain ⟨a, ha, rfl⟩ := List.mem_map.mp h
  exact ⟨a, Option.mem_toList.mp ha, rfl⟩

lemma emittedBy_of_mem {w : World} {change : Option RecordChange} {event : Event}
    {internal : InternalEvent} (h : internal ∈ emitted w change event) :
    EmittedBy w event internal := by
  unfold emitted at h
  split at h
  case h_1 approval =>
    split at h
    · obtain rfl := List.mem_singleton.mp h
      exact .approval rfl
    · cases h
  case h_2 stepExecutionId approved =>
    obtain ⟨approval, -, rfl⟩ := mem_toList_map h
    cases approved <;> exact .approval rfl
  case h_3 =>
    obtain ⟨approval, -, rfl⟩ := mem_toList_map h
    exact .approval rfl
  case h_4 | h_5 =>
    obtain ⟨row, hfound, rfl⟩ := mem_toList_map h
    obtain ⟨hfound, hrow⟩ := Option.filter_eq_some_iff.mp hfound
    simp only [Bool.and_eq_true, decide_eq_true_eq] at hrow
    exact .ended hfound hrow.2
  case h_6 =>
    obtain ⟨type, hfound, rfl⟩ := mem_toList_map h
    obtain ⟨done, -, hevent⟩ := Option.bind_eq_some_iff.mp hfound
    exact .invoked rfl (isEffectStep_of_recordEvent hevent) rfl
  case h_7 => cases h

/-! ## The system -/

/-- The world with test runs, internal events, and the executions that were triggered, each with the
execution whose event it was. -/
structure TestWorld where
  world : World
  testRuns : Table TestRunRow TestRunRow.executionId
  internalEvents : List InternalEvent
  triggered : List (String × String)

def TestWorld.initial : TestWorld := ⟨World.initial, .empty, [], []⟩

inductive TestEvent where
  | world (event : Event) (change : Option RecordChange)
  | createTestRun (row : ExecutionRow) (testRun : TestRunRow)
  | materialize (event : InternalEvent) (row : ExecutionRow)

/-- The execution of a test run. -/
def testExecution (row : ExecutionRow) : ExecutionRow :=
  { row with executionMode := .test, parentExecutionId := none }

/-- An execution that an event has triggered. -/
def eventExecution (row : ExecutionRow) : ExecutionRow :=
  { row with executionMode := .real, parentExecutionId := none }

/-- What happens in the world. -/
def TestEvent.onWorld : TestEvent → Event
  | world event _ => event
  | createTestRun row _ => .api (.create (testExecution row) false)
  | materialize _ row => .api (.create (eventExecution row) false)

/-- What the world leaves open: the policy decides about handlers, jobs are delivered for executions
that are there, approvals are requested by the handler of a running approval step, and what else the
API creates is neither a test nor a child. -/
def Ordinary (p : Platform) (t : TestWorld) : Event → Bool
  | .start job => (t.world.db.executions.get? job.executionId).isSome
  | .api (.create row _) =>
    Decidable.decide (row.executionMode = .real) && row.parentExecutionId.isNone
  | .api (.requestApproval approval) =>
    Decidable.decide (approval.executionId = approval.stepExecutionId.executionId) &&
      ((p.step? approval.stepExecutionId).any fun step =>
        Decidable.decide (step.type = .approval)) &&
      (t.world.db.steps.get? approval.stepExecutionId).any fun row =>
        Decidable.decide (row.status = .running)
  | _ => true

/-- The policy has decided. -/
def Decided (p : Platform) (t : TestWorld) (event : Event) : Prop :=
  ∀ job step config decision, event = .statement job (.decide step config) decision →
    decision = decide p.js (t.world.db.executions.get? job.executionId)
      (t.testRuns.get? job.executionId) step config

inductive TestStep (p : Platform) : TestWorld → TestEvent → TestWorld → Prop where
  | world {t : TestWorld} {event : Event} {w' : World} (change : Option RecordChange)
      (hstep : WorldStep p t.world event w') (hordinary : Ordinary p t event = true)
      (hdecided : Decided p t event) :
      TestStep p t (.world event change)
        { t with world := w', internalEvents := t.internalEvents ++ emitted t.world change event }
  | createTestRun {t : TestWorld} {row : ExecutionRow} {testRun : TestRunRow} {w' : World}
      (hstep : WorldStep p t.world (.api (.create (testExecution row) false)) w')
      (hid : testRun.executionId = row.id) (hfresh : t.testRuns.get? testRun.executionId = none) :
      TestStep p t (.createTestRun row testRun)
        { t with world := w', testRuns := t.testRuns.insert testRun hfresh }
  | materialize {t : TestWorld} {event : InternalEvent} {row : ExecutionRow} {w' : World}
      (hevent : event ∈ t.internalEvents)
      (hstep : WorldStep p t.world (.api (.create (eventExecution row) false)) w') :
      TestStep p t (.materialize event row)
        { t with world := w', triggered := t.triggered ++ [(row.id, event.executionId)] }

/-- Every step is one of the world. -/
lemma TestStep.worldStep {p : Platform} {t t' : TestWorld} {event : TestEvent}
    (h : TestStep p t event t') : WorldStep p t.world event.onWorld t'.world := by
  cases h with
  | world change hstep hordinary hdecided => exact hstep
  | createTestRun hstep hid hfresh => exact hstep
  | materialize hevent hstep => exact hstep

/-- An execution that is there because of `root`. -/
inductive Consequence (t : TestWorld) (root : String) : String → Prop where
  | root : Consequence t root root
  | child {executionId parent : String} {row : ExecutionRow}
      (hrow : t.world.db.executions.get? executionId = some row)
      (hparent : row.parentExecutionId = some parent) (h : Consequence t root parent) :
      Consequence t root executionId
  | triggered {executionId cause : String} (htriggered : (executionId, cause) ∈ t.triggered)
      (h : Consequence t root cause) : Consequence t root executionId

/-! ## Scripts -/

/-- A step of a script.  In a step of the world the decision of the policy replaces that of the
oracle. -/
inductive TestAction where
  | world (action : Action) (change : Option RecordChange)
  | createTestRun (row : ExecutionRow) (testRun : TestRunRow)
  | materialize (index : ℕ) (row : ExecutionRow)

namespace TestWorld

/-- The statement a worker is about to make is decided by the policy. -/
def withDecision (p : Platform) (t : TestWorld) : Action → Action
  | .statement worker oracle =>
    match t.world.jobs worker with
    | some ⟨job, Prog.ask (.decide step config) _, _⟩ =>
      .statement worker { oracle with
        decision := TestRuns.decide p.js (t.world.db.executions.get? job.executionId)
          (t.testRuns.get? job.executionId) step config }
    | _ => .statement worker oracle
  | action => action

/-- Execute one step of a script. -/
def act (p : Platform) (t : TestWorld) : TestAction → Option (TestEvent × TestWorld)
  | .world action change =>
    (t.world.act p (t.withDecision p action)).bind fun (event, w') =>
      if Ordinary p t event then
        some (.world event change, { t with
          world := w', internalEvents := t.internalEvents ++ emitted t.world change event })
      else none
  | .createTestRun row testRun =>
    if h : testRun.executionId = row.id ∧ t.testRuns.get? testRun.executionId = none then
      (t.world.act p (.api (.create (testExecution row) false))).map fun (_, w') =>
        (.createTestRun row testRun,
          { t with world := w', testRuns := t.testRuns.insert testRun h.2 })
    else none
  | .materialize index row =>
    match t.internalEvents[index]? with
    | none => none
    | some event =>
      (t.world.act p (.api (.create (eventExecution row) false))).map fun (_, w') =>
        (.materialize event row,
          { t with world := w', triggered := t.triggered ++ [(row.id, event.executionId)] })

variable {p : Platform} {t t' : TestWorld}

lemma decided_withDecision {action : Action} {event : Event} {w' : World}
    (h : t.world.act p (t.withDecision p action) = some (event, w')) : Decided p t event := by
  rintro job step config decision rfl
  cases action with
  | statement worker oracle =>
    simp only [withDecision] at h
    split at h
    case h_1 job' step' config' k log hactive =>
      simp only [World.act, hactive] at h
      split at h
      case isTrue hworker =>
        obtain ⟨⟨answer, db⟩, hperform, heq⟩ := Option.map_eq_some_iff.mp h
        cases hperform
        cases (Prod.mk.inj heq).1
        rfl
      case isFalse => cases h
    case h_2 hnone =>
      simp only [World.act] at h
      split at h
      case h_1 job' statement k log hactive =>
        split at h
        case isTrue hworker =>
          obtain ⟨⟨answer, db⟩, hperform, heq⟩ := Option.map_eq_some_iff.mp h
          cases (Prod.mk.inj heq).1
          exact absurd hactive (hnone _ _ _ _ _)
        case isFalse => cases h
      case h_2 => cases h
  | api write =>
    obtain ⟨db, -, heq⟩ := Option.map_eq_some_iff.mp h
    cases (Prod.mk.inj heq).1
  | start job =>
    simp only [withDecision, World.act] at h
    split at h <;> cases h
  | startPass worker =>
    simp only [withDecision, World.act] at h
    split at h <;> cases h
  | passStatement worker oracle =>
    simp only [withDecision, World.act] at h
    split at h <;> cases h
  | _ => cases h

lemma act_sound {action : TestAction} {event : TestEvent} (h : t.act p action = some (event, t')) :
    TestStep p t event t' := by
  cases action with
  | world action change =>
    obtain ⟨⟨inner, w'⟩, hact, hrest⟩ := Option.bind_eq_some_iff.mp h
    simp only at hrest
    split at hrest
    case isTrue hordinary =>
      cases hrest
      exact .world change (World.act_sound hact) hordinary (decided_withDecision hact)
    case isFalse => cases hrest
  | createTestRun row testRun =>
    simp only [act] at h
    split at h
    case isTrue hnew =>
      obtain ⟨⟨inner, w'⟩, hact, ⟨⟩⟩ := Option.map_eq_some_iff.mp h
      obtain ⟨db, -, hinner⟩ := Option.map_eq_some_iff.mp hact
      have hstep := World.act_sound hact
      rw [← (Prod.mk.inj hinner).1] at hstep
      exact .createTestRun hstep hnew.1 hnew.2
    case isFalse => cases h
  | materialize index row =>
    simp only [act] at h
    split at h
    case h_1 => cases h
    case h_2 event hevent =>
      obtain ⟨⟨inner, w'⟩, hact, ⟨⟩⟩ := Option.map_eq_some_iff.mp h
      obtain ⟨db, -, hinner⟩ := Option.map_eq_some_iff.mp hact
      have hstep := World.act_sound hact
      rw [← (Prod.mk.inj hinner).1] at hstep
      exact .materialize (List.mem_of_getElem? hevent) hstep

/-- A script whose events and last state have a property: there is a run with it. -/
lemma exists_run {actions : List TestAction} {last : List TestEvent × TestWorld → Prop}
    [DecidablePred last] (h : (script (act p) t actions).any (fun done => last done) = true) :
    ∃ events t', Run (TestStep p) t events t' ∧ last (events, t') :=
  Program.exists_run (act p) (fun _ _ _ _ => act_sound) h

end TestWorld

end Flowmind.TestRuns
