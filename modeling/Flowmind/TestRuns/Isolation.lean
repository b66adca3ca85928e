import Flowmind.Nesting.Starts
import Flowmind.Protocol.Decisions
import Flowmind.TestRuns.TestWorld

/-!
# Test runs and the world outside

A test run in mode `mock` should have no effects: no handler with effects outside is invoked,
neither in its execution nor in any that is there because of it, and none of these is a real one.

* `Isolated` — this property of a run of the system and of a test run in it.
* `Contained` — no subworkflow of the test run gets to a step with effects, and no trigger starts an
  execution for the event of an approval in it.
* `isolated_of_contained` — a contained test run is isolated.

Both parts of the condition are needed.  The policy looks for the test run of the execution that the
step belongs to, and only the root has one; and the events of approvals do not say that they come
from a test.  What is not needed is that triggers ignore other events: the tree emits none.
-/

namespace Flowmind.TestRuns

open Program Store

/-! ## What has happened -/

/-- A worker has made the statement in its job. -/
def Made (events : List TestEvent) (job : Job) (statement : Statement) (answer : Answer statement) :
    Prop :=
  ∃ event ∈ events, event.onWorld = .statement job statement answer

/-- The handler of a step with effects has been invoked in the execution. -/
def HasEffect (events : List TestEvent) (executionId : String) : Prop :=
  ∃ job context row step attempt config answer,
    Made events job (.invoke context row step attempt config) answer ∧
      job.executionId = executionId ∧ isEffectStep step.type = true

/-- The execution is there, and has the mode. -/
def TestWorld.HasMode (t : TestWorld) (executionId : String) (mode : ExecutionMode) : Prop :=
  ∃ row, t.world.db.executions.get? executionId = some row ∧ row.executionMode = mode

/-- The test run of `root` has no effects. -/
structure Isolated (events : List TestEvent) (t : TestWorld) (root : String) : Prop where
  /-- No handler with effects is invoked. -/
  handlers : ∀ executionId, Consequence t root executionId → ¬ HasEffect events executionId
  /-- Whatever is there because of it is a test as well. -/
  modes : ∀ executionId, Consequence t root executionId → t.HasMode executionId .test

/-- The test run of `root` stays clear of what the policy does not see. -/
structure Contained (events : List TestEvent) (t : TestWorld) (root : String) : Prop where
  /-- Its subworkflows do not get to a step with effects. -/
  subworkflows : ∀ job step config decision, Made events job (.decide step config) decision →
    Consequence t root job.executionId → job.executionId ≠ root → isEffectStep step.type = false
  /-- No trigger answers to its approvals. -/
  approvals : ∀ event row, TestEvent.materialize event row ∈ events →
    event.type.isApproval = true → ¬ Consequence t root event.executionId

variable {events : List TestEvent} {event : TestEvent} {job : Job} {statement : Statement}
  {answer : Answer statement}

lemma Made.append (h : Made events job statement answer) :
    Made (events ++ [event]) job statement answer := by
  obtain ⟨made, hmem, heq⟩ := h
  exact ⟨made, List.mem_append_left _ hmem, heq⟩

lemma made_last (h : event.onWorld = .statement job statement answer) :
    Made (events ++ [event]) job statement answer :=
  ⟨event, by simp, h⟩

lemma made_append_iff : Made (events ++ [event]) job statement answer ↔
    Made events job statement answer ∨ event.onWorld = .statement job statement answer := by
  simp [Made]

lemma HasEffect.append {executionId : String} (h : HasEffect events executionId) :
    HasEffect (events ++ [event]) executionId := by
  obtain ⟨job, context, row, step, attempt, config, answer, hmade, hrest⟩ := h
  exact ⟨job, context, row, step, attempt, config, answer, hmade.append, hrest⟩

/-! ## What a job has read -/

/-- What a run knows of executions it has read. -/
lemma found_of_after {e : String} {row : ExecutionRow} :
    ∀ {log : List (Sigma Answer)}, row ∈ ((startProtocol e).after .initial log).found →
      ∃ id, (⟨.findExecution id, some row⟩ : Sigma Answer) ∈ log := by
  intro log
  induction log using List.reverseRecOn with
  | nil => intro h; cases h
  | append_singleton log answered ih =>
    intro h
    obtain ⟨statement, answer⟩ := answered
    rw [Protocol.after_snoc] at h
    have hkeep : row ∈ ((startProtocol e).after .initial log).found →
        ∃ id, (⟨.findExecution id, some row⟩ : Sigma Answer) ∈ log ++ [⟨statement, answer⟩] := by
      intro h
      obtain ⟨id, hmem⟩ := ih h
      exact ⟨id, List.mem_append_left _ hmem⟩
    simp only [startProtocol, StartView.next] at h
    split at h
    case h_2 id found =>
      rcases List.mem_cons.mp h with rfl | h
      · exact ⟨id, by simp⟩
      · exact hkeep h
    all_goals exact hkeep h

/-! ## What holds in every state -/

/-- Facts about every state of every run. -/
structure Facts (p : Platform) (events : List TestEvent) (t : TestWorld) : Prop where
  valid : t.world.Valid p
  /-- What is in the log of a job has happened. -/
  logged : ∀ {worker : String} {active : ActiveJob}, t.world.jobs worker = some active →
    ∀ answered ∈ active.log, Made events active.job answered.1 answered.2
  /-- A job belongs to an execution. -/
  jobs : ∀ {worker : String} {active : ActiveJob}, t.world.jobs worker = some active →
    ∃ mode, t.HasMode active.job.executionId mode
  made : ∀ {job : Job} {statement : Statement} {answer : Answer statement},
    Made events job statement answer → ∃ mode, t.HasMode job.executionId mode
  testRuns : ∀ {executionId : String} {testRun : TestRunRow},
    t.testRuns.get? executionId = some testRun → t.HasMode executionId .test
  /-- An execution that was read has kept its mode. -/
  found : ∀ {job : Job} {id : String} {row : ExecutionRow},
    Made events job (.findExecution id) (some row) → t.HasMode row.id row.executionMode
  /-- A child has the mode of its parent. -/
  parents : ∀ {executionId parent : String} {row : ExecutionRow},
    t.world.db.executions.get? executionId = some row → row.parentExecutionId = some parent →
    t.HasMode parent row.executionMode
  triggered : ∀ {executionId cause : String}, (executionId, cause) ∈ t.triggered →
    ∃ event row, TestEvent.materialize event row ∈ events ∧ event.executionId = cause
  materialized : ∀ {event : InternalEvent} {row : ExecutionRow},
    TestEvent.materialize event row ∈ events → event ∈ t.internalEvents
  /-- The tests emit nothing but the events of approvals, unless they have effects. -/
  emitted : ∀ {event : InternalEvent}, event ∈ t.internalEvents → event.type.isApproval = false →
    t.HasMode event.executionId .real ∨ HasEffect events event.executionId
  /-- Before a handler is invoked, the policy is asked. -/
  invoked : ∀ {job : Job} {context : ContextId} {row : StepRow} {step : StepDefinition} {attempt : ℕ}
    {config : Json} {answer : Except Failure StepResult},
    Made events job (.invoke context row step attempt config) answer →
    ∃ asked, Made events job (.decide step asked) Decision.runReal
  decided : ∀ {job : Job} {step : StepDefinition} {config : Json} {testRun : TestRunRow},
    Made events job (.decide step config) Decision.runReal → isEffectStep step.type = true →
    t.testRuns.get? job.executionId = some testRun → testRun.externalMode ≠ .mock

variable {p : Platform} {t : TestWorld} {executionId : String} {testRun : TestRunRow}

section Facts

variable {t' : TestWorld}

/-- The mode of an execution stays. -/
lemma TestStep.hasMode (hstep : TestStep p t event t') {mode : ExecutionMode}
    (h : t.HasMode executionId mode) : t'.HasMode executionId mode := by
  obtain ⟨row, hrow, hmode⟩ := h
  obtain ⟨row', hrow', hmode', -⟩ := hstep.worldStep.identity hrow
  exact ⟨row', hrow', hmode'.trans hmode⟩

variable {row : ExecutionRow}

/-- An execution that a step creates, under the name it has afterwards. -/
lemma hasMode_of_create {w w' : World} {webhook : Bool}
    (hstep : WorldStep p w (.api (.create row webhook)) w') :
    w.db.executions.get? row.id = none ∧
      ∃ created, w'.db.executions.get? row.id = some created ∧
        created.executionMode = row.executionMode := by
  cases hstep with
  | api hperform =>
    refine ⟨?_, _, (Database.get?_createExecution hperform row.id).trans (if_pos rfl), rfl⟩
    simp only [ApiWrite.perform, Database.createExecution] at hperform
    split at hperform
    case isTrue hfresh => exact hfresh
    case isFalse => cases hperform

/-- What is known when a job makes a statement. -/
lemma Facts.of_statement (h : Facts p events t) {w' : World}
    (hstep : WorldStep p t.world (.statement job statement answer) w') :
    ∃ active, t.world.jobs job.worker = some active ∧ active.job = job ∧
      statement.IsDue active.log ∧
      (startProtocol job.executionId).ok
        ((startProtocol job.executionId).after .initial active.log) statement ∧
      ∃ oracle, statement.perform p job t.world.clock oracle t.world.db = some (answer, w'.db) := by
  obtain ⟨active, k, oracle, hactive, rfl, hprogram, hperform⟩ := hstep.of_statement
  have hdue := (h.valid.jobs hactive).meets (meets_due_run p _ []) fun hperform =>
    answersFor_perform hperform
  have hstart := (h.valid.jobs hactive).meets (meets_startProtocol_run p _) startProtocol_rely
  rw [hprogram] at hdue hstart
  rw [after_dueProtocol] at hdue
  exact ⟨active, hactive, rfl, hdue.1, hstart.1, oracle, hperform⟩

/-- What the API creates is no child. -/
lemma TestStep.parent_of_create (hstep : TestStep p t event t') {webhook : Bool}
    (hevent : event.onWorld = .api (.create row webhook)) : row.parentExecutionId = none := by
  cases hstep with
  | world change hworld hordinary hdecided =>
    obtain rfl : _ = Event.api (.create row webhook) := hevent
    simp only [Ordinary, Bool.and_eq_true, Option.isNone_iff_eq_none] at hordinary
    exact hordinary.2
  | createTestRun hworld hid hfresh =>
    cases hevent
    rfl
  | materialize hemitted hworld =>
    cases hevent
    rfl

variable {internal : InternalEvent}

/-- Internal events stay. -/
lemma TestStep.mem_internalEvents (hstep : TestStep p t event t')
    (h : internal ∈ t.internalEvents) : internal ∈ t'.internalEvents := by
  cases hstep with
  | world => exact List.mem_append_left _ h
  | createTestRun => exact h
  | materialize => exact h

variable {active : ActiveJob}

section

variable (h : Facts p events t) (hstep : TestStep p t event t')
include h hstep

lemma Facts.logged_step {worker : String} (hactive : t'.world.jobs worker = some active) :
    ∀ answered ∈ active.log, Made (events ++ [event]) active.job answered.1 answered.2 := by
  rcases hstep.worldStep.jobs_cases hactive with
    ⟨hold, -⟩ | ⟨job, -, -, rfl, -⟩ | ⟨old, statement, k, answer, oracle, hold, -, hevent, -, -, rfl⟩
  · exact fun answered hmem => (h.logged hold answered hmem).append
  · intro answered hmem
    cases hmem
  · intro answered hmem
    rcases List.mem_append.mp hmem with hmem | hmem
    · exact (h.logged hold answered hmem).append
    · obtain rfl := List.mem_singleton.mp hmem
      exact made_last hevent

lemma Facts.jobs_step {worker : String} (hactive : t'.world.jobs worker = some active) :
    ∃ mode, t'.HasMode active.job.executionId mode := by
  rcases hstep.worldStep.jobs_cases hactive with
    ⟨hold, -⟩ | ⟨job, hevent, -, rfl, -⟩ | ⟨old, statement, k, answer, oracle, hold, -, -, -, -, rfl⟩
  · obtain ⟨mode, hmode⟩ := h.jobs hold
    exact ⟨mode, hstep.hasMode hmode⟩
  · -- A job is delivered for an execution that is there.
    cases hstep with
    | world change hworld hordinary hdecided =>
      obtain rfl : _ = Event.start job := hevent
      obtain ⟨row, hrow⟩ := Option.isSome_iff_exists.mp hordinary
      obtain ⟨row', hrow', -⟩ := hworld.identity hrow
      exact ⟨_, row', hrow', rfl⟩
    | _ => cases hevent
  · obtain ⟨mode, hmode⟩ := h.jobs hold
    exact ⟨mode, hstep.hasMode hmode⟩

lemma Facts.made_step (hmade : Made (events ++ [event]) job statement answer) :
    ∃ mode, t'.HasMode job.executionId mode := by
  rcases made_append_iff.mp hmade with hmade | hlast
  · obtain ⟨mode, hmode⟩ := h.made hmade
    exact ⟨mode, hstep.hasMode hmode⟩
  · obtain ⟨active, hactive, rfl, -⟩ := h.of_statement (hlast ▸ hstep.worldStep)
    obtain ⟨mode, hmode⟩ := h.jobs hactive
    exact ⟨mode, hstep.hasMode hmode⟩

lemma Facts.testRuns_step (htestRun : t'.testRuns.get? executionId = some testRun) :
    t'.HasMode executionId .test := by
  cases hstep with
  | world change hworld hordinary hdecided =>
    exact TestStep.hasMode (.world change hworld hordinary hdecided) (h.testRuns htestRun)
  | createTestRun hworld hid hfresh =>
    rw [Table.get?_insert] at htestRun
    split at htestRun
    case isTrue heq =>
      obtain ⟨-, created, hcreated, hmode⟩ := hasMode_of_create hworld
      exact ⟨created, heq ▸ hid ▸ hcreated, hmode⟩
    case isFalse =>
      exact TestStep.hasMode (.createTestRun hworld hid hfresh) (h.testRuns htestRun)
  | materialize hevent hworld =>
    exact TestStep.hasMode (.materialize hevent hworld) (h.testRuns htestRun)

lemma Facts.found_step {id : String}
    (hmade : Made (events ++ [event]) job (.findExecution id) (some row)) :
    t'.HasMode row.id row.executionMode := by
  rcases made_append_iff.mp hmade with hmade | hlast
  · exact hstep.hasMode (h.found hmade)
  · obtain ⟨active, -, -, -, -, oracle, hperform⟩ := h.of_statement (hlast ▸ hstep.worldStep)
    have hfound := congrArg Prod.fst (Option.some.inj hperform)
    obtain ⟨hrow, -⟩ := Option.filter_eq_some_iff.mp hfound
    exact hstep.hasMode ⟨row, (Table.key_of_get? hrow).symm ▸ hrow, rfl⟩

lemma Facts.parents_step {parent : String}
    (hrow : t'.world.db.executions.get? executionId = some row)
    (hparent : row.parentExecutionId = some parent) : t'.HasMode parent row.executionMode := by
  cases hold : t.world.db.executions.get? executionId with
  | some old =>
    obtain ⟨row', hrow', hmode, hparent'⟩ := hstep.worldStep.identity hold
    cases hrow'.symm.trans hrow
    rw [hmode]
    exact hstep.hasMode (h.parents hold (hparent'.symm.trans hparent))
  | none =>
    have hcreates := hstep.worldStep.creates_of_none hold hrow
    unfold Event.creates at hcreates
    split at hcreates
    case h_1 created webhook hevent =>
      cases hcreates
      exact absurd ((hstep.parent_of_create hevent).symm.trans hparent) (by simp)
    case h_2 job step write child answer hevent =>
      -- The mode of a child is that of the parent as it was read, and that is what it still is.
      obtain ⟨active, hactive, rfl, -, hstart, -⟩ := h.of_statement (hevent ▸ hstep.worldStep)
      obtain ⟨found, hmem, -, hchild⟩ := hstart.parent
      obtain ⟨id, hlogged⟩ := found_of_after hmem
      have hfound := h.found (h.logged hactive _ hlogged)
      cases hcreates
      cases hchild.parentExecutionId.symm.trans hparent
      exact hstep.hasMode (hchild.executionMode ▸ hfound)
    case h_3 => cases hcreates

lemma Facts.triggered_step {cause : String} (htriggered : (executionId, cause) ∈ t'.triggered) :
    ∃ source row, TestEvent.materialize source row ∈ events ++ [event] ∧
      source.executionId = cause := by
  have hkeep : (executionId, cause) ∈ t.triggered → ∃ source row,
      TestEvent.materialize source row ∈ events ++ [event] ∧ source.executionId = cause := by
    intro hold
    obtain ⟨source, row, hmem, hcause⟩ := h.triggered hold
    exact ⟨source, row, List.mem_append_left _ hmem, hcause⟩
  cases hstep with
  | world => exact hkeep htriggered
  | createTestRun => exact hkeep htriggered
  | @materialize source row w' hevent hworld =>
    rcases List.mem_append.mp htriggered with hold | hnew
    · exact hkeep hold
    · obtain ⟨-, rfl⟩ := Prod.mk.inj (List.mem_singleton.mp hnew)
      exact ⟨source, row, by simp, rfl⟩

lemma Facts.materialized_step (hmem : TestEvent.materialize internal row ∈ events ++ [event]) :
    internal ∈ t'.internalEvents := by
  rcases List.mem_append.mp hmem with hold | hnew
  · exact hstep.mem_internalEvents (h.materialized hold)
  · obtain rfl := List.mem_singleton.mp hnew
    cases hstep with
    | materialize hevent hworld => exact hevent

lemma Facts.emitted_step (hmem : internal ∈ t'.internalEvents)
    (htype : internal.type.isApproval = false) :
    t'.HasMode internal.executionId .real ∨ HasEffect (events ++ [event]) internal.executionId := by
  have hkeep : internal ∈ t.internalEvents →
      t'.HasMode internal.executionId .real ∨ HasEffect (events ++ [event]) internal.executionId :=
    fun hold => (h.emitted hold htype).imp hstep.hasMode HasEffect.append
  cases hstep with
  | @world inner w' change hworld hordinary hdecided =>
    rcases List.mem_append.mp hmem with hold | hnew
    · exact hkeep hold
    · cases emittedBy_of_mem hnew with
      | approval happroval =>
        rw [htype] at happroval
        cases happroval
      | @ended row hfound hmode =>
        have hreal : row.executionMode = .real := by
          cases hrow : row.executionMode with
          | real => rfl
          | test => exact absurd hrow hmode
        exact .inl (TestStep.hasMode (.world change hworld hordinary hdecided)
          ⟨row, hfound, hreal⟩)
      | invoked heq heffect hid => exact .inr ⟨_, _, _, _, _, _, _, made_last heq, hid, heffect⟩
  | createTestRun => exact hkeep hmem
  | materialize => exact hkeep hmem

lemma Facts.invoked_step {context : ContextId} {row : StepRow} {step : StepDefinition}
    {attempt : ℕ} {config : Json} {answer : Except Failure StepResult}
    (hmade : Made (events ++ [event]) job (.invoke context row step attempt config) answer) :
    ∃ asked, Made (events ++ [event]) job (.decide step asked) Decision.runReal := by
  rcases made_append_iff.mp hmade with hmade | hlast
  · obtain ⟨asked, hasked⟩ := h.invoked hmade
    exact ⟨asked, hasked.append⟩
  · obtain ⟨active, hactive, rfl, ⟨asked, hlogged⟩, -⟩ := h.of_statement (hlast ▸ hstep.worldStep)
    exact ⟨asked, (h.logged hactive _ hlogged).append⟩

lemma Facts.decided_step {step : StepDefinition} {config : Json}
    (hmade : Made (events ++ [event]) job (.decide step config) Decision.runReal)
    (heffect : isEffectStep step.type = true)
    (htestRun : t'.testRuns.get? job.executionId = some testRun) : testRun.externalMode ≠ .mock := by
  cases hstep with
  | @world inner w' change hworld hordinary hdecided =>
    rcases made_append_iff.mp hmade with hmade | hlast
    · exact h.decided hmade heffect htestRun
    · obtain ⟨row, hrow, hmode⟩ := h.testRuns htestRun
      intro hmock
      have hdecision := hdecided job step config _ hlast
      rw [hrow, htestRun] at hdecision
      exact decide_ne_runReal hmode hmock heffect config hdecision.symm
  | createTestRun hworld hid hfresh =>
    rcases made_append_iff.mp hmade with hmade | hlast
    · rw [Table.get?_insert] at htestRun
      split at htestRun
      case isTrue heq =>
        -- The execution is new, so nothing has been decided for it.
        obtain ⟨mode, row, hrow, -⟩ := h.made hmade
        rw [← heq, hid] at hrow
        exact absurd ((hasMode_of_create hworld).1.symm.trans hrow) (by simp)
      case isFalse => exact h.decided hmade heffect htestRun
    · cases hlast
  | materialize hevent hworld =>
    rcases made_append_iff.mp hmade with hmade | hlast
    · exact h.decided hmade heffect htestRun
    · cases hlast

lemma Facts.step : Facts p (events ++ [event]) t' where
  valid := hstep.worldStep.valid h.valid
  logged := h.logged_step hstep
  jobs := h.jobs_step hstep
  made := h.made_step hstep
  testRuns := h.testRuns_step hstep
  found := h.found_step hstep
  parents := h.parents_step hstep
  triggered := h.triggered_step hstep
  materialized := h.materialized_step hstep
  emitted := h.emitted_step hstep
  invoked := h.invoked_step hstep
  decided := h.decided_step hstep

end

lemma facts_initial : Facts p [] TestWorld.initial where
  valid := valid_initial
  logged h := by cases h
  jobs h := by cases h
  made h := by simp [Made] at h
  testRuns h := by cases h
  found h := by simp [Made] at h
  parents h := by cases h
  triggered h := by cases h
  materialized h := by cases h
  emitted h := by cases h
  invoked h := by simp [Made] at h
  decided h := by simp [Made] at h

lemma facts_of_run (hrun : Run (TestStep p) TestWorld.initial events t) : Facts p events t :=
  hrun.invariant (Facts p) facts_initial fun _ _ _ _ _ h hstep => h.step hstep

end Facts

/-! ## Isolation -/

section Isolation

variable {root : String}

section

variable (h : Facts p events t) (htestRun : t.testRuns.get? root = some testRun)
  (hmock : testRun.externalMode = .mock) (hcontained : Contained events t root)
  (hconsequence : Consequence t root executionId)
include h htestRun hmock hcontained hconsequence

/-- A contained test run invokes no handler with effects: in its own execution the policy sees to
it, elsewhere there is none to be invoked. -/
lemma Facts.not_hasEffect : ¬ HasEffect events executionId := by
  rintro ⟨job, context, row, step, attempt, config, answer, hmade, rfl, heffect⟩
  obtain ⟨asked, hasked⟩ := h.invoked hmade
  by_cases hroot : job.executionId = root
  · exact h.decided hasked heffect (hroot ▸ htestRun) hmock
  · rw [hcontained.subworkflows job step asked _ hasked hconsequence hroot] at heffect
    cases heffect

/-- A contained test run brings about tests only. -/
lemma Facts.hasMode_of_consequence : t.HasMode executionId .test := by
  induction hconsequence with
  | root => exact h.testRuns htestRun
  | @child executionId parent row hrow hparent _ ih =>
    obtain ⟨above, habove, hmode⟩ := h.parents hrow hparent
    obtain ⟨above', habove', htest⟩ := ih
    cases habove.symm.trans habove'
    exact ⟨row, hrow, hmode.symm.trans htest⟩
  | @triggered executionId cause htriggered hcause ih =>
    exfalso
    obtain ⟨event, row, hmem, rfl⟩ := h.triggered htriggered
    cases htype : event.type.isApproval with
    | true => exact hcontained.approvals event row hmem htype hcause
    | false =>
      rcases h.emitted (h.materialized hmem) htype with ⟨real, hreal, hmode⟩ | heffect
      · obtain ⟨test, htest, hmode'⟩ := ih
        cases hreal.symm.trans htest
        rw [hmode] at hmode'
        cases hmode'
      · exact h.not_hasEffect htestRun hmock hcontained hcause heffect

end

/-- **A contained test run is isolated**, in every state of every run: no handler with effects is
invoked because of it, and no real execution is created. -/
theorem isolated_of_contained (hrun : Run (TestStep p) TestWorld.initial events t)
    {testRun : TestRunRow} (htestRun : t.testRuns.get? root = some testRun)
    (hmock : testRun.externalMode = .mock) (hcontained : Contained events t root) :
    Isolated events t root where
  handlers _ hconsequence :=
    (facts_of_run hrun).not_hasEffect htestRun hmock hcontained hconsequence
  modes _ hconsequence :=
    (facts_of_run hrun).hasMode_of_consequence htestRun hmock hcontained hconsequence

end Isolation

/-! ### Mock test runs of three workflows -/

/-- The test run `"run"`, with nothing said about single steps. -/
def mockTestRun : TestAction :=
  .createTestRun (newExecution "run" "org" "workflow" "version" .queued 0) ⟨"run", .mock, .obj []⟩

/-- A worker gets a job and makes some statements. -/
def works (worker executionId : String) (count : ℕ) (oracle : Oracle) : List TestAction :=
  (.start ⟨worker, executionId, "org"⟩ :: statements worker count oracle).map (.world · none)

/-- The event is one of the execution, or of nobody. -/
def TestEvent.within (executionId : String) (event : TestEvent) : Bool :=
  match event with
  | .materialize .. => false
  | _ => match event.onWorld with
    | .statement job _ _ => Decidable.decide (job.executionId = executionId)
    | _ => true

lemma contained_of_within {root : String} (h : events.all (TestEvent.within root) = true) :
    Contained events t root where
  subworkflows := by
    rintro job step config decision ⟨event, hmem, heq⟩ - hne
    have hwithin := List.all_eq_true.mp h event hmem
    unfold TestEvent.within at hwithin
    split at hwithin
    · cases hwithin
    · rw [heq] at hwithin
      exact absurd (of_decide_eq_true hwithin) hne
  approvals event row hmem := by
    have hwithin := List.all_eq_true.mp h _ hmem
    cases hwithin

/-- The policy has made up a result for a step with effects. -/
def TestEvent.mocksEffect (event : TestEvent) : Bool :=
  match event.onWorld with
  | .statement _ (.decide step _) (.mock _ : Decision) => isEffectStep step.type
  | _ => false

/-- The request of a workflow of one step is not sent in its test run. -/
theorem request_mocked :
    ∃ events t testRun,
      Run (TestStep (trialPlatform (singleStep .httpRequest))) TestWorld.initial events t ∧
      t.testRuns.get? "run" = some testRun ∧ testRun.externalMode = .mock ∧
      (∃ event ∈ events, event.mocksEffect = true) ∧ Isolated events t "run" := by
  have hscript : (script (TestWorld.act (trialPlatform (singleStep .httpRequest))) TestWorld.initial
      (mockTestRun :: works "a" "run" 28 {})).any (fun done =>
        (∃ testRun ∈ done.2.testRuns.get? "run", testRun.externalMode = .mock) ∧
        (∃ event ∈ done.1, event.mocksEffect) ∧ done.1.all (TestEvent.within "run")) := by
    decide +kernel
  obtain ⟨events, t, hrun, ⟨testRun, htestRun, hmock⟩, hmocks, hwithin⟩ :=
    TestWorld.exists_run hscript
  exact ⟨events, t, testRun, hrun, htestRun, hmock, hmocks,
    isolated_of_contained hrun htestRun hmock (contained_of_within hwithin)⟩

/-- The handler of a step with effects is invoked in the execution. -/
def TestEvent.invokesEffect (executionId : String) (event : TestEvent) : Bool :=
  match event.onWorld with
  | .statement job (.invoke _ _ step _ _) _ =>
    Decidable.decide (job.executionId = executionId) && isEffectStep step.type
  | _ => false

lemma hasEffect_of_any (h : events.any (TestEvent.invokesEffect executionId) = true) :
    HasEffect events executionId := by
  obtain ⟨event, hmem, hinvokes⟩ := List.any_eq_true.mp h
  unfold TestEvent.invokesEffect at hinvokes
  split at hinvokes
  case h_1 heq =>
    rw [Bool.and_eq_true, decide_eq_true_eq] at hinvokes
    exact ⟨_, _, _, _, _, _, _, ⟨event, hmem, heq⟩, hinvokes⟩
  case h_2 => cases hinvokes

/-- The approval of the step `"only"`, as its handler requests it. -/
def onlyApproval : ApprovalRow where
  stepExecutionId := onlyStep
  executionId := "run"
  status := .pending
  expiresAt := none

/-- Two leaks of mock test runs.  The request of a workflow that the test run calls is sent; and the
approval of a test run triggers a real execution. -/
theorem mock_test_run_leaks :
    (∃ events t testRun, Run (TestStep callPlatform) TestWorld.initial events t ∧
      t.testRuns.get? "run" = some testRun ∧ testRun.externalMode = .mock ∧
      Consequence t "run" "child" ∧ HasEffect events "child") ∧
    ∃ events t testRun, Run (TestStep (trialPlatform (singleStep .approval))) TestWorld.initial events t ∧
      t.testRuns.get? "run" = some testRun ∧ testRun.externalMode = .mock ∧
      Consequence t "run" "notify" ∧ t.HasMode "notify" .real := by
  constructor
  · have hscript : (script (TestWorld.act callPlatform) TestWorld.initial
        (mockTestRun :: works "a" "run" 26 { freshId := "child", config := .ok callConfig } ++
          works "b" "child" 17 {})).any (fun done =>
        (∃ testRun ∈ done.2.testRuns.get? "run", testRun.externalMode = .mock) ∧
        done.1.any (TestEvent.invokesEffect "child") ∧
        ∃ row ∈ done.2.world.db.executions.get? "child", row.parentExecutionId = some "run") := by
      decide +kernel
    obtain ⟨events, t, hrun, ⟨testRun, htestRun, hmock⟩, hinvokes, row, hrow, hparent⟩ :=
      TestWorld.exists_run hscript
    exact ⟨events, t, testRun, hrun, htestRun, hmock, .child hrow hparent .root,
      hasEffect_of_any hinvokes⟩
  · have hscript : (script (TestWorld.act (trialPlatform (singleStep .approval))) TestWorld.initial
        (mockTestRun :: works "a" "run" 16 {} ++
          [.world (.api (.requestApproval onlyApproval)) none,
            .materialize 0 (newExecution "notify" "org" "hook" "version" .queued 0)])).any (fun done =>
        (∃ testRun ∈ done.2.testRuns.get? "run", testRun.externalMode = .mock) ∧
        ("notify", "run") ∈ done.2.triggered ∧
        ∃ row ∈ done.2.world.db.executions.get? "notify", row.executionMode = .real) := by
      decide +kernel
    obtain ⟨events, t, hrun, ⟨testRun, htestRun, hmock⟩, htriggered, row, hrow, hmode⟩ :=
      TestWorld.exists_run hscript
    exact ⟨events, t, testRun, hrun, htestRun, hmock, .triggered htriggered .root, row, hrow, hmode⟩

end Flowmind.TestRuns
