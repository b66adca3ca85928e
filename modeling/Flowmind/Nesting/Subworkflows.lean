import Flowmind.Nesting.Cancel
import Flowmind.Nesting.Starts
import Flowmind.System.Lifecycle
import Mathlib.Data.List.MinMax

/-!
# The trees of executions

Executions that are created by a dispatcher or by a replay have no parent; a subworkflow step
creates children.  The checks that a run makes before it starts a child are about what it has read
(`meets_startProtocol_run`), and what it has read stays true until then.

* `Placement` — what is fixed when an execution is created; a step adds at most one
  (`placement_cases`).
* `Nested` — parents are there, depths and roots are right, and a workflow is not among its
  ancestors.
* `World.Families` — with that, what is true of the children of a step and of what the runs have
  read.
* `nesting_wellFounded` — the result, if no child ends in the millisecond in which it was created
  (`FamilyStep.lasts`); `step_has_two_active_children` — otherwise a step may have two active ones.
* `cancel_misses_nothing` — so cancelling an execution finds all below it.
-/

namespace Flowmind

open Program Store Nesting Database

/-! ## What is fixed -/

/-- What is fixed when an execution is created. -/
structure Placement where
  organizationId : String
  workflowId : String
  createdAt : ℕ
  parentExecutionId : Option String
  parentStepExecutionId : Option StepId
  rootExecutionId : Option String
  depth : ℕ

def ExecutionRow.placement (row : ExecutionRow) : Placement where
  organizationId := row.organizationId
  workflowId := row.workflowId
  createdAt := row.createdAt
  parentExecutionId := row.parentExecutionId
  parentStepExecutionId := row.parentStepExecutionId
  rootExecutionId := row.rootExecutionId
  depth := row.depth

/-- It is one level below its parent, in the same organization and tree. -/
structure Placement.Below (here : Placement) (parent : String) (above : Placement) : Prop where
  organizationId : here.organizationId = above.organizationId
  depth : here.depth = above.depth + 1
  depth_le : here.depth ≤ Subworkflow.maxDepth
  rootExecutionId : here.rootExecutionId = some (above.rootExecutionId.getD parent)

/-- The placements of all executions. -/
def Database.placement (db : Database) (id : String) : Option Placement :=
  (db.executions.get? id).map (·.placement)

variable {db : Database} {id : String}

lemma Database.placement_of_get? {row : ExecutionRow} (h : db.executions.get? id = some row) :
    db.placement id = some row.placement := by
  rw [placement, h, Option.map_some]

lemma Database.exists_of_placement {place : Placement} (h : db.placement id = some place) :
    ∃ row, db.executions.get? id = some row ∧ row.placement = place :=
  Option.map_eq_some_iff.mp h

lemma Event.placement_onExecution (p : Platform) (w : World) (now : ℕ) (event : Event)
    (row : ExecutionRow) : ((event.onExecution p w now).data row).placement = row.placement := by
  cases event with
  | statement job made answer => cases made <;> rfl
  | passStatement worker made answer => cases made <;> rfl
  | api write =>
    cases write with
    | decideApproval stepExecutionId approved =>
      simp only [onExecution, ApiWrite.onExecution]
      split <;> rfl
    | _ => rfl
  | _ => rfl

variable {p : Platform} {w w' : World} {event : Event}

section

variable (hstep : WorldStep p w event w')
include hstep

/-- An execution stays where it is. -/
lemma WorldStep.placement_of_some {place : Placement} (h : w.db.placement id = some place) :
    w'.db.placement id = some place := by
  obtain ⟨row, hrow, rfl⟩ := exists_of_placement h
  obtain ⟨now, -, row', hrow', rfl | ⟨-, rfl⟩⟩ := hstep.execution_cases hrow
  · exact placement_of_get? hrow'
  · rw [placement_of_get? hrow', Event.placement_onExecution]

/-- Where an execution comes from. -/
lemma WorldStep.row_cases {row' : ExecutionRow} (h : w'.db.executions.get? id = some row') :
    (∃ row, w.db.executions.get? id = some row ∧ row'.placement = row.placement) ∨
      event.creates w.clock = some row' := by
  cases hrow : w.db.executions.get? id with
  | none => exact .inr (hstep.creates_of_none hrow h)
  | some row =>
    have hplace := hstep.placement_of_some (placement_of_get? hrow)
    rw [placement_of_get? h, Option.some.injEq] at hplace
    exact .inl ⟨row, rfl, hplace⟩

/-- A step adds one execution at most. -/
lemma WorldStep.placement_cases :
    w'.db.placement = w.db.placement ∨
    ∃ row, event.creates w.clock = some row ∧ w.db.placement row.id = none ∧
      w'.db.executions.get? row.id = some row ∧
      w'.db.placement = Function.update w.db.placement row.id (some row.placement) := by
  by_cases hsame : ∀ id, w.db.executions.get? id = none → w'.db.executions.get? id = none
  · left
    funext id
    cases hplace : w.db.placement id with
    | none =>
      rw [Database.placement, hsame id (by simpa [Database.placement] using hplace), Option.map_none]
    | some place => exact hstep.placement_of_some hplace
  · right
    push Not at hsame
    obtain ⟨id, hnone, hsome⟩ := hsame
    obtain ⟨row, hrow⟩ := Option.ne_none_iff_exists'.mp hsome
    have hcreates := hstep.creates_of_none hnone hrow
    obtain rfl := id_of_get? hrow
    refine ⟨row, hcreates, by rw [Database.placement, hnone, Option.map_none], hrow, ?_⟩
    funext id
    by_cases hid : id = row.id
    · subst hid
      rw [Function.update_self, placement_of_get? hrow]
    · rw [Function.update_of_ne hid]
      cases hplace : w.db.placement id with
      | some place => exact hstep.placement_of_some hplace
      | none =>
        -- Two rows that were not there before would be the same.
        cases hother : w'.db.executions.get? id with
        | none => rw [Database.placement, hother, Option.map_none]
        | some other =>
          have hcreates' := hstep.creates_of_none (by simpa [Database.placement] using hplace) hother
          rw [hcreates, Option.some.injEq] at hcreates'
          exact absurd ((id_of_get? hother).symm.trans (congrArg _ hcreates'.symm)) hid

end

/-! ## Trees -/

/-- The parents in a family of placements. -/
def parents (place : String → Option Placement) (id : String) : Option String :=
  (place id).bind (·.parentExecutionId)

lemma Database.parentOf_eq (db : Database) : db.parentOf = parents db.placement := by
  funext id
  simp only [parentOf, parents, placement]
  cases db.executions.get? id <;> rfl

/-- Depths and roots are right, and no workflow is among its own ancestors. -/
structure Nested (place : String → Option Placement) : Prop where
  top : ∀ {id here}, place id = some here → here.parentExecutionId = none →
    here.parentStepExecutionId = none ∧ here.rootExecutionId = none ∧ here.depth = 0
  child : ∀ {id here parent}, place id = some here → here.parentExecutionId = some parent →
    ∃ above, place parent = some above ∧ here.Below parent above
  workflows : ∀ {id ancestor here above}, Descends (parents place) id ancestor →
    place id = some here → place ancestor = some above → above.workflowId ≠ here.workflowId

namespace Nested

variable {place : String → Option Placement} {new : Placement}

lemma empty : Nested fun _ => none where
  top h := by cases h
  child h := by cases h
  workflows _ h := by cases h

/-- An execution that is not there is the parent of none. -/
lemma parents_ne (h : Nested place) (hnone : place id = none) (other : String) :
    parents place other ≠ some id := by
  intro hparent
  obtain ⟨here, hhere, hlink⟩ := Option.bind_eq_some_iff.mp hparent
  obtain ⟨above, habove, -⟩ := h.child hhere hlink
  rw [hnone] at habove
  cases habove

lemma parents_update : parents (Function.update place id (some new)) =
    Function.update (parents place) id new.parentExecutionId := by
  funext other
  by_cases hother : other = id
  · subst hother
    simp [parents]
  · simp [parents, hother]

variable {other : String} {here : Placement}

/-- What is there after one is added. -/
lemma update_cases (h : Function.update place id (some new) other = some here) :
    (other = id ∧ here = new) ∨ (other ≠ id ∧ place other = some here) := by
  by_cases hother : other = id
  · subst hother
    rw [Function.update_self, Option.some.injEq] at h
    exact .inl ⟨rfl, h.symm⟩
  · rw [Function.update_of_ne hother] at h
    exact .inr ⟨hother, h⟩

/-- What is there is there after another one is added. -/
lemma update_of_some (hnone : place id = none) (h : place other = some here) :
    Function.update place id (some new) other = some here := by
  rwa [Function.update_of_ne]
  rintro rfl
  rw [hnone] at h
  cases h

/-- A new execution: it has no parent and is at the top, or it is placed below its parent and its
workflow is not among those of its ancestors. -/
lemma insert (h : Nested place) (hnone : place id = none)
    (htop : new.parentExecutionId = none →
      new.parentStepExecutionId = none ∧ new.rootExecutionId = none ∧ new.depth = 0)
    (hchild : ∀ parent, new.parentExecutionId = some parent →
      ∃ above, place parent = some above ∧ new.Below parent above)
    (hworkflow : ∀ parent ancestor above, new.parentExecutionId = some parent →
      parent = ancestor ∨ Descends (parents place) parent ancestor →
      place ancestor = some above → above.workflowId ≠ new.workflowId) :
    Nested (Function.update place id (some new)) := by
  have hleaf := h.parents_ne hnone
  have hself : new.parentExecutionId ≠ some id := by
    intro hparent
    obtain ⟨above, habove, -⟩ := hchild id hparent
    rw [hnone] at habove
    cases habove
  have hparents : parents place id = none := by rw [parents, hnone, Option.bind_none]
  constructor
  · intro other here hhere hparent
    rcases update_cases hhere with ⟨rfl, rfl⟩ | ⟨-, hhere⟩
    · exact htop hparent
    · exact h.top hhere hparent
  · intro other here parent hhere hparent
    have hold : ∃ above, place parent = some above ∧ here.Below parent above := by
      rcases update_cases hhere with ⟨rfl, rfl⟩ | ⟨-, hhere⟩
      · exact hchild parent hparent
      · exact h.child hhere hparent
    exact hold.imp fun above ⟨habove, hrest⟩ => ⟨update_of_some hnone habove, hrest⟩
  · intro other ancestor here above hdescends hhere habove
    rw [parents_update, descends_update_iff hparents hleaf hself] at hdescends
    -- The new execution is the ancestor of none.
    have hancestor : ∀ {i}, ¬ Descends (parents place) i id := by
      intro i hdescends
      obtain ⟨_, -, hlast⟩ := Relation.TransGen.tail'_iff.mp hdescends
      exact hleaf _ hlast
    rcases update_cases hhere with ⟨rfl, rfl⟩ | ⟨hother, hhere⟩
    · rw [if_pos rfl] at hdescends
      obtain ⟨parent, hparent, hdescends⟩ := hdescends
      rcases update_cases habove with ⟨rfl, -⟩ | ⟨-, habove⟩
      · rcases hdescends with rfl | hdescends
        · exact absurd hparent hself
        · exact absurd hdescends hancestor
      · exact hworkflow parent ancestor above hparent hdescends habove
    · rw [if_neg hother] at hdescends
      rcases update_cases habove with ⟨rfl, -⟩ | ⟨-, habove⟩
      · exact absurd hdescends hancestor
      · exact h.workflows hdescends hhere habove

end Nested

/-- The workflows of all ancestors are among those that were found. -/
lemma Lineage.mem {place : String → Option Placement} {found : List ExecutionRow}
    {ids : List String} (hfound : ∀ row ∈ found, place row.id = some row.placement)
    (h : Lineage found id ids) {ancestor : String} {above : Placement}
    (hdescends : id = ancestor ∨ Descends (parents place) id ancestor)
    (habove : place ancestor = some above) : above.workflowId ∈ ids := by
  have hparent : ∀ {row}, row ∈ found → parents place row.id = row.parentExecutionId := by
    intro row hrow
    rw [parents, hfound row hrow]
    rfl
  have hself : ∀ {row : ExecutionRow}, row ∈ found → row.id = ancestor →
      above.workflowId = row.workflowId := by
    rintro row hrow rfl
    rw [hfound row hrow, Option.some.injEq] at habove
    rw [← habove]
    rfl
  induction h with
  | @root row hrow hroot =>
    rcases hdescends with heq | hdescends
    · simp [hself hrow heq]
    · obtain ⟨parent, hlink, -⟩ := hdescends.exists_parent
      rw [hparent hrow, hroot] at hlink
      cases hlink
  | @child row parent ids hrow hlink _ ih =>
    rcases hdescends with heq | hdescends
    · simp [hself hrow heq]
    · obtain ⟨above', hlink', hrest⟩ := hdescends.exists_parent
      rw [hparent hrow, hlink, Option.some.injEq] at hlink'
      exact List.mem_cons_of_mem _ (ih (hlink' ▸ hrest))

/-! ## Histories -/

/-- The execution that a write of the API puts into the queue whatever its status is: one of a
webhook or a schedule, or a test run. -/
def ApiWrite.requeues : ApiWrite → Option String
  | .dispatched e | .dispatchRetried e | .dispatchDeferred e => some e
  | .skipWait row _ => some row.id.executionId
  | _ => none

/-- A step in which the API is used as its services use it. -/
structure ServedStep (p : Platform) (w : World) (event : Event) (w' : World) : Prop where
  step : WorldStep p w event w'
  /-- Dispatchers and replays create executions without a parent. -/
  creates_top : ∀ row webhook, event = .api (.create row webhook) →
    row.parentExecutionId = none ∧ row.parentStepExecutionId = none ∧ row.rootExecutionId = none ∧
      row.depth = 0
  /-- These are the ones they dispatch, or run as a test. -/
  requeues_top : ∀ write id row, event = .api write → write.requeues = some id →
    w.db.executions.get? id = some row → row.parentExecutionId = none

/-- A step of a history in which an execution has one runner at a time. -/
structure SoloStep (p : Platform) (w : World) (event : Event) (w' : World) : Prop
    extends ServedStep p w event w' where
  /-- A runner starts when there is no other. -/
  alone : ∀ job worker active, event = .start job → w.jobs worker = some active →
    active.job.executionId ≠ job.executionId

/-- In addition no two children of a step have the same time. -/
structure FamilyStep (p : Platform) (w : World) (event : Event) (w' : World) : Prop
    extends SoloStep p w event w' where
  /-- A child takes some time: it does not end in the millisecond in which it was created. -/
  lasts : ∀ id row row', w.db.executions.get? id = some row → w'.db.executions.get? id = some row' →
    row.parentExecutionId ≠ none → row.status.isActive = true → row'.status.isActive = false →
    row.createdAt < w.clock

/-- What a run has read is still true. -/
structure StartView.Holds (w : World) (job : Job) (v : StartView) : Prop where
  found : ∀ row ∈ v.found, w.db.placement row.id = some row.placement ∧
    row.organizationId = job.organizationId
  kept : v.lost = false
  time_le : ∀ t ∈ v.time, t ≤ w.clock
  /-- If the newest child of an own step has ended, all have, and it is later now. -/
  settled : ∀ step newest, v.newest = some (step, newest) → step.executionId = job.executionId →
    (∀ other ∈ newest, other.status.isActive = false) →
    ∀ id row, w.db.executions.get? id = some row → row.parentStepExecutionId = some step →
      row.status.isActive = false ∧ row.createdAt < v.time.getD w.clock

/-- What a run has read. -/
def ActiveJob.startView (active : ActiveJob) : StartView :=
  (startProtocol active.job.executionId).after .initial active.log

lemma ActiveJob.startView_next {active : ActiveJob} (program : Eng WorkflowRunResult)
    (statement : Statement) (answer : Answer statement) :
    (active.next program statement answer).startView = active.startView.next statement answer :=
  Protocol.after_snoc ..

/-- What holds in every history. -/
structure World.Families (w : World) : Prop where
  nested : Nested w.db.placement
  created_le : ∀ {id row}, w.db.executions.get? id = some row → row.createdAt ≤ w.clock
  ended_lt : ∀ {id row}, w.db.executions.get? id = some row → row.parentExecutionId ≠ none →
    row.status.isActive = false → row.createdAt < w.clock
  /-- Of the children of a step all but the newest have ended. -/
  siblings : ∀ {id id' row row' step}, w.db.executions.get? id = some row →
    w.db.executions.get? id' = some row' → row.parentStepExecutionId = some step →
    row'.parentStepExecutionId = some step → id ≠ id' →
    row.createdAt ≠ row'.createdAt ∧ (row.createdAt < row'.createdAt → row.status.isActive = false)
  alone : ∀ {worker worker' active active'}, w.jobs worker = some active →
    w.jobs worker' = some active' → active.job.executionId = active'.job.executionId →
    worker = worker'
  informed : ∀ {worker active}, w.jobs worker = some active → active.startView.Holds w active.job

lemma families_initial : World.initial.Families where
  nested := .empty
  created_le h := by cases h
  ended_lt h := by cases h
  siblings h := by cases h
  alone h := by cases h
  informed h := by cases h

/-! ## The newest child -/

variable {row : ExecutionRow}

namespace Database

/-- The children of a step. -/
def childrenOf (db : Database) (parent : StepId) : List ExecutionRow :=
  db.executions.rows.filter fun row => decide (row.parentStepExecutionId = some parent)

lemma latestChild_eq (db : Database) (parent : StepId) :
    db.latestChild parent = (db.childrenOf parent).argmax (·.createdAt) := by
  refine congrArg (fun later => List.foldl later none _) ?_
  funext latest row
  cases latest <;> rfl

variable {parent : StepId}

lemma mem_childrenOf (hrow : db.executions.get? id = some row)
    (hchild : row.parentStepExecutionId = some parent) : row ∈ db.childrenOf parent :=
  List.mem_filter.mpr ⟨(Table.get?_eq_some_iff.mp hrow).1, decide_eq_true hchild⟩

/-- A step without a newest child has none. -/
lemma latestChild_none (h : db.latestChild parent = none)
    (hrow : db.executions.get? id = some row) : row.parentStepExecutionId ≠ some parent := by
  intro hchild
  rw [latestChild_eq, List.argmax_eq_none] at h
  exact List.ne_nil_of_mem (mem_childrenOf hrow hchild) h

/-- The newest child of a step is one, and none is newer. -/
lemma latestChild_some {latest : ExecutionRow} (h : db.latestChild parent = some latest) :
    db.executions.get? latest.id = some latest ∧ latest.parentStepExecutionId = some parent ∧
      ∀ {id row}, db.executions.get? id = some row → row.parentStepExecutionId = some parent →
        row.createdAt ≤ latest.createdAt := by
  rw [latestChild_eq] at h
  obtain ⟨hmem, hchild⟩ := List.mem_filter.mp (List.argmax_mem h)
  exact ⟨Table.get?_eq_some_iff.mpr ⟨hmem, rfl⟩, of_decide_eq_true hchild,
    fun hrow hchild => List.le_of_mem_argmax (mem_childrenOf hrow hchild) h⟩

end Database

/-! ## Every step -/

section Steps

variable {step : StepId}

/-- A child of a step has a parent. -/
lemma World.Families.parent_ne_none (h : w.Families) (hrow : w.db.executions.get? id = some row)
    (hchild : row.parentStepExecutionId = some step) : row.parentExecutionId ≠ none := by
  intro hparent
  obtain ⟨hnone, -⟩ := h.nested.top (placement_of_get? hrow) hparent
  exact absurd (hnone.symm.trans hchild) (by simp)

/-- An execution that has ended is put into the queue, or it is cancelled. -/
lemma Event.requeues_of_writesStatus {after : ExecutionStatus} (h : event.writesStatus row after)
    (hended : row.status.isActive = false) :
    (∃ write, event = .api write ∧ write.requeues = some row.id) ∨ after = .cancelled := by
  unfold Event.writesStatus at h
  split at h
  all_goals first
    | exact .inl ⟨_, rfl, by rw [h.1]; rfl⟩
    | exact .inr h.2
    | (rcases h with ⟨hstatus | hstatus, -⟩ <;> rw [hstatus] at hended <;> cases hended)
    | simp_all [ExecutionStatus.isActive]

section

variable (hstep : ServedStep p w event w') {row' : ExecutionRow}
  (hrow : w.db.executions.get? id = some row) (hrow' : w'.db.executions.get? id = some row')
  (hparent : row.parentExecutionId ≠ none) (hended : row.status.isActive = false)
include hstep hrow hrow' hparent hended

/-- A child that has ended is as it was, or cancelled. -/
lemma ServedStep.ended_cases : row'.status = row.status ∨ row'.status = .cancelled := by
  obtain ⟨now, -, row₁, hrow₁, hmaybe⟩ := hstep.step.execution_cases hrow
  cases hrow₁.symm.trans hrow'
  refine hmaybe.status_cases.imp_right fun hwrites => ?_
  refine (Event.requeues_of_writesStatus hwrites hended).resolve_left ?_
  rintro ⟨write, rfl, hrequeues⟩
  rw [id_of_get? hrow] at hrequeues
  exact hparent (hstep.requeues_top write id row rfl hrequeues hrow)

/-- A child that has ended stays so. -/
lemma ServedStep.ended : row'.status.isActive = false := by
  rcases hstep.ended_cases hrow hrow' hparent hended with hsame | hcancelled
  · rw [hsame, hended]
  · rw [hcancelled]
    rfl

end

/-- What a new execution is. -/
lemma ServedStep.creates_cases (hvalid : w.Valid p) (hstep : ServedStep p w event w')
    (h : event.creates w.clock = some row) :
    (row.createdAt = w.clock ∧ row.parentExecutionId = none ∧ row.parentStepExecutionId = none ∧
      row.rootExecutionId = none ∧ row.depth = 0) ∨
    ∃ active stepRow write child, ∃ answer : Unit, w.jobs active.job.worker = some active ∧
      event = .statement active.job (.startChild stepRow write child) answer ∧
      MayStart active.job.executionId active.startView stepRow child ∧
      row = { child with status := .queued, lockedBy := none, lockedUntil := none } := by
  unfold Event.creates at h
  split at h
  case h_1 created webhook =>
    cases h
    obtain ⟨hparent, hparentStep, hroot, hdepth⟩ := hstep.creates_top created webhook rfl
    exact .inl ⟨rfl, hparent, hparentStep, hroot, hdepth⟩
  case h_2 job stepRow write child answer =>
    obtain ⟨active, k, oracle, hactive, rfl, hprogram, hperform⟩ := hstep.step.of_statement
    have hmeets := (hvalid.jobs hactive).meets (meets_startProtocol_run p _) startProtocol_rely
    rw [hprogram] at hmeets
    exact .inr ⟨active, stepRow, write, child, answer, hactive, rfl, hmeets.1,
      (Option.some.inj h).symm⟩
  case h_3 => cases h

variable {v : StartView}

/-- What was read stays true, unless the run itself starts a child. -/
lemma StartView.Holds.keep {job : Job} (h : v.Holds w job) (hfamilies : w.Families)
    (hstep : FamilyStep p w event w')
    (hforeign : ∀ step newest, v.newest = some (step, newest) → step.executionId = job.executionId →
      ∀ row, event.creates w.clock = some row → row.parentStepExecutionId ≠ some step) :
    v.Holds w' job where
  found row hrow := (h.found row hrow).imp_left hstep.step.placement_of_some
  kept := h.kept
  time_le t ht := (h.time_le t ht).trans hstep.step.clock_le
  settled := by
    intro step newest hnewest hown hended id row' hrow' hchild
    rcases hstep.step.row_cases hrow' with ⟨row, hrow, hplace⟩ | hcreates
    · have hchild₀ : row.parentStepExecutionId = some step :=
        (congrArg Placement.parentStepExecutionId hplace).symm.trans hchild
      have hcreatedAt : row'.createdAt = row.createdAt := congrArg Placement.createdAt hplace
      obtain ⟨hended₀, hlt⟩ := h.settled step newest hnewest hown hended id row hrow hchild₀
      refine ⟨hstep.ended hrow hrow' (hfamilies.parent_ne_none hrow hchild₀) hended₀, ?_⟩
      rw [hcreatedAt]
      refine hlt.trans_le ?_
      cases v.time with
      | none => exact hstep.step.clock_le
      | some t => exact le_rfl
    · exact absurd hchild (hforeign step newest hnewest hown row' hcreates)

/-- What was read is true, and what is read now as well. -/
lemma StartView.Holds.next {job : Job} (h : v.Holds w job) (hfamilies : w.Families)
    {statement : Statement} {answer : Answer statement} {oracle : Oracle} {db' : Database}
    (hperform : statement.perform p job w.clock oracle w.db = some (answer, db')) :
    (v.next statement answer).Holds w job := by
  cases statement with
  | findExecution id =>
    obtain ⟨hfind, -⟩ := Prod.mk.inj (Option.some.inj hperform)
    cases answer with
    | none =>
      refine { h with kept := ?_ }
      change (v.lost || v.knows id) = false
      rw [h.kept, Bool.eq_false_iff]
      intro hknows
      -- What is known is there, and in the organization.
      have hthere : ∃ row, w.db.executions.get? id = some row ∧
          row.organizationId = job.organizationId := by
        obtain ⟨row, hrow, hid⟩ := List.any_eq_true.mp hknows
        obtain ⟨hplace, horganization⟩ := h.found row hrow
        rw [Bool.or_eq_true, decide_eq_true_eq, decide_eq_true_eq] at hid
        rcases hid with rfl | hparent
        · obtain ⟨row', hrow', hsame⟩ := exists_of_placement hplace
          exact ⟨row', hrow', (congrArg Placement.organizationId hsame).trans horganization⟩
        · obtain ⟨above, habove, hbelow⟩ := hfamilies.nested.child hplace hparent
          obtain ⟨row', hrow', rfl⟩ := exists_of_placement habove
          exact ⟨row', hrow', hbelow.organizationId.symm.trans horganization⟩
      obtain ⟨row, hrow, horganization⟩ := hthere
      rw [hrow, Option.filter_some, if_pos (by simp [horganization])] at hfind
      cases hfind
    | some row =>
      refine { h with found := ?_ }
      intro other hother
      rcases List.mem_cons.mp hother with rfl | hother
      · obtain ⟨hrow, horganization⟩ := Option.filter_eq_some_iff.mp hfind
        obtain rfl := id_of_get? hrow
        exact ⟨placement_of_get? hrow, of_decide_eq_true horganization⟩
      · exact h.found other hother
  | latestChild parent =>
    obtain ⟨hlatest, -⟩ := Prod.mk.inj (Option.some.inj hperform)
    refine { h with time_le := by rintro _ ⟨⟩, settled := ?_ }
    intro step newest hnewest hown hended id row hrow hchild
    cases hnewest
    have hrowEnded : row.status.isActive = false := by
      cases answer with
      | none => exact absurd hchild (latestChild_none hlatest hrow)
      | some latest =>
        obtain ⟨hthere, hsame, hmax⟩ := latestChild_some hlatest
        by_cases hid : id = latest.id
        · subst hid
          cases hthere.symm.trans hrow
          exact hended _ rfl
        · obtain ⟨hne, hearlier⟩ := hfamilies.siblings hrow hthere hchild hsame hid
          exact hearlier (lt_of_le_of_ne (hmax hrow hchild) hne)
    exact ⟨hrowEnded,
      hfamilies.ended_lt hrow (hfamilies.parent_ne_none hrow hchild) hrowEnded⟩
  | now =>
    cases hperform
    refine { h with time_le := by rintro _ ⟨⟩; exact le_rfl, settled := ?_ }
    intro step newest hnewest hown hended id row hrow hchild
    obtain ⟨hrowEnded, hlt⟩ := h.settled step newest hnewest hown hended id row hrow hchild
    refine ⟨hrowEnded, hlt.trans_le ?_⟩
    cases htime : v.time with
    | none => exact le_rfl
    | some t => exact h.time_le t htime
  | startChild => exact { h with settled := by rintro _ _ ⟨⟩ }
  | cancelChild => exact { h with }
  | _ => exact h

section

variable (hvalid : w.Valid p) (hfamilies : w.Families) (hstep : FamilyStep p w event w')
include hvalid hfamilies hstep

variable {worker : String}

/-- A new child of a step of an execution is started by its runner. -/
lemma FamilyStep.foreign {active : ActiveJob} (hactive : w.jobs worker = some active)
    (hother : ∀ job statement answer, event = .statement job statement answer → job.worker ≠ worker)
    (hcreates : event.creates w.clock = some row)
    (hown : step.executionId = active.job.executionId) : row.parentStepExecutionId ≠ some step := by
  rcases hstep.creates_cases hvalid hcreates with
    ⟨-, -, hnone, -⟩ | ⟨runner, stepRow, write, child, answer, hrunner, hevent, hmay, rfl⟩
  · rw [hnone]
    simp
  · intro hchild
    have hstepId : stepRow.id = step := Option.some.inj (hmay.step.symm.trans hchild)
    have hsame : runner.job.executionId = active.job.executionId := by
      rw [← hmay.executionId, hstepId, hown]
    exact hother _ _ _ hevent (hfamilies.alone hrunner hactive hsame)

/-- What the runs have read is true after a step as well. -/
lemma FamilyStep.informed {active' : ActiveJob} (hactive' : w'.jobs worker = some active') :
    active'.startView.Holds w' active'.job := by
  rcases hstep.step.jobs_cases hactive' with ⟨hactive, hother⟩ | ⟨job, -, -, rfl, -⟩ |
    ⟨active, statement, k, answer, oracle, hactive, -, hevent, -, hperform, rfl⟩
  · exact (hfamilies.informed hactive).keep hfamilies hstep fun step newest _ hown row hcreates =>
      hstep.foreign hvalid hfamilies hactive hother hcreates hown
  · exact ⟨by simp [ActiveJob.startView, StartView.initial], rfl, by rintro _ ⟨⟩, by rintro _ _ ⟨⟩⟩
  · rw [ActiveJob.startView_next]
    refine ((hfamilies.informed hactive).next hfamilies hperform).keep hfamilies hstep ?_
    intro step newest hnewest hown row hcreates
    rw [hevent] at hcreates
    cases statement with
    | startChild => cases hnewest
    | _ => cases hcreates

/-- A child is placed below its parent. -/
lemma FamilyStep.nested : Nested w'.db.placement := by
  rcases hstep.step.placement_cases with hsame | ⟨row, hcreates, hnone, -, hplaces⟩
  · exact hsame ▸ hfamilies.nested
  rw [hplaces]
  rcases hstep.creates_cases hvalid hcreates with
    ⟨-, hparent, hrest⟩ | ⟨runner, stepRow, write, child, answer, hrunner, -, hmay, rfl⟩
  · refine hfamilies.nested.insert hnone (fun _ => hrest) ?_ ?_
    · intro parent hlink
      exact absurd (hparent.symm.trans hlink) (by simp)
    · intro parent _ _ hlink
      exact absurd (hparent.symm.trans hlink) (by simp)
  · have hinformed := hfamilies.informed hrunner
    obtain ⟨parent, hfound, hparent, hchild⟩ := hmay.parent
    have hlink : child.parentExecutionId = some runner.job.executionId :=
      hparent ▸ hchild.parentExecutionId
    refine hfamilies.nested.insert hnone ?_ ?_ ?_
    · intro hnoparent
      exact absurd (hlink.symm.trans hnoparent) (by simp)
    · intro above hlink'
      cases hlink.symm.trans hlink'
      refine ⟨parent.placement, hparent ▸ (hinformed.found parent hfound).1, hchild.organizationId,
        hchild.depth, hchild.depth_le, ?_⟩
      exact hparent ▸ hchild.rootExecutionId
    · intro above ancestor ancestorPlace hlink' hdescends hplace
      cases hlink.symm.trans hlink'
      obtain ⟨ids, hlineage, hnew⟩ := hmay.lineage.resolve_left (by simp [hinformed.kept])
      intro (heq : ancestorPlace.workflowId = child.workflowId)
      exact hnew (heq ▸ hlineage.mem (fun row hrow => (hinformed.found row hrow).1) hdescends hplace)

/-- What is known of the children of a step when one is added. -/
lemma FamilyStep.siblings {id' : String} {row' : ExecutionRow}
    (hrow : w'.db.executions.get? id = some row) (hrow' : w'.db.executions.get? id' = some row')
    (hchild : row.parentStepExecutionId = some step)
    (hchild' : row'.parentStepExecutionId = some step) (hne : id ≠ id') :
    row.createdAt ≠ row'.createdAt ∧
      (row.createdAt < row'.createdAt → row.status.isActive = false) := by
  -- A new child is later than the ones before, which have ended.
  have hnew : ∀ {id old new}, w.db.executions.get? id = some old →
      old.parentStepExecutionId = some step → event.creates w.clock = some new →
      new.parentStepExecutionId = some step →
      old.status.isActive = false ∧ old.createdAt < new.createdAt := by
    intro id old new hold hchildOld hcreates hchildNew
    rcases hstep.creates_cases hvalid hcreates with
      ⟨-, -, hnone, -⟩ | ⟨runner, stepRow, write, child, answer, hrunner, -, hmay, rfl⟩
    · exact absurd (hnone.symm.trans hchildNew) (by simp)
    · obtain ⟨newest, hnewest, hended⟩ := hmay.newest
      obtain rfl : stepRow.id = step := Option.some.inj (hmay.step.symm.trans hchildNew)
      have hsettled := (hfamilies.informed hrunner).settled _ newest hnewest hmay.executionId hended id old
        hold hchildOld
      rw [hmay.time] at hsettled
      exact hsettled
  have hsame : ∀ {old row : ExecutionRow}, row.placement = old.placement →
      row.parentStepExecutionId = old.parentStepExecutionId ∧ row.createdAt = old.createdAt :=
    fun h => ⟨congrArg Placement.parentStepExecutionId h, congrArg Placement.createdAt h⟩
  have hended : ∀ {old : ExecutionRow}, w.db.executions.get? id = some old →
      row.parentStepExecutionId = old.parentStepExecutionId → old.status.isActive = false →
      row.status.isActive = false := fun hold hparent =>
    hstep.ended hold hrow (hfamilies.parent_ne_none hold (hparent.symm.trans hchild))
  rcases hstep.step.row_cases hrow with ⟨old, hold, hplace⟩ | hcreates <;>
    rcases hstep.step.row_cases hrow' with ⟨old', hold', hplace'⟩ | hcreates'
  · obtain ⟨hparent, hcreatedAt⟩ := hsame hplace
    obtain ⟨hparent', hcreatedAt'⟩ := hsame hplace'
    obtain ⟨hdiffer, hearlier⟩ := hfamilies.siblings hold hold' (hparent.symm.trans hchild)
      (hparent'.symm.trans hchild') hne
    rw [hcreatedAt, hcreatedAt']
    exact ⟨hdiffer, fun hlt => hended hold hparent (hearlier hlt)⟩
  · obtain ⟨hparent, hcreatedAt⟩ := hsame hplace
    obtain ⟨hold_ended, hlt⟩ := hnew hold (hparent.symm.trans hchild) hcreates' hchild'
    rw [hcreatedAt]
    exact ⟨hlt.ne, fun _ => hended hold hparent hold_ended⟩
  · obtain ⟨hparent', hcreatedAt'⟩ := hsame hplace'
    obtain ⟨-, hlt⟩ := hnew hold' (hparent'.symm.trans hchild') hcreates hchild
    rw [hcreatedAt']
    exact ⟨hlt.ne', fun hgt => absurd hgt hlt.not_gt⟩
  · rw [hcreates, Option.some.injEq] at hcreates'
    exact absurd ((id_of_get? hrow).symm.trans
      ((congrArg _ hcreates').trans (id_of_get? hrow'))) hne

/-- Every step. -/
lemma FamilyStep.families : w'.Families where
  nested := hstep.nested hvalid hfamilies
  created_le := by
    intro id row hrow
    rcases hstep.step.row_cases hrow with ⟨old, hold, hplace⟩ | hcreates
    · have hcreatedAt : row.createdAt = old.createdAt := congrArg Placement.createdAt hplace
      rw [hcreatedAt]
      exact (hfamilies.created_le hold).trans hstep.step.clock_le
    · refine le_trans ?_ hstep.step.clock_le
      rcases hstep.creates_cases hvalid hcreates with
        ⟨hcreatedAt, -⟩ | ⟨runner, stepRow, write, child, answer, hrunner, -, hmay, rfl⟩
      · exact hcreatedAt.le
      · exact (hfamilies.informed hrunner).time_le _ hmay.time
  ended_lt := by
    intro id row hrow hparent hended
    rcases hstep.step.row_cases hrow with ⟨old, hold, hplace⟩ | hcreates
    · have hcreatedAt : row.createdAt = old.createdAt := congrArg Placement.createdAt hplace
      have hparentOld : old.parentExecutionId ≠ none := fun hnone =>
        hparent ((congrArg Placement.parentExecutionId hplace).trans hnone)
      rw [hcreatedAt]
      refine lt_of_lt_of_le ?_ hstep.step.clock_le
      cases hactive : old.status.isActive with
      | true => exact hstep.lasts id old row hold hrow hparentOld hactive hended
      | false => exact hfamilies.ended_lt hold hparentOld hactive
    · rcases hstep.creates_cases hvalid hcreates with
        ⟨-, hnone, -⟩ | ⟨runner, stepRow, write, child, answer, -, -, -, rfl⟩
      · exact absurd hnone hparent
      · cases hended
  siblings := fun hrow hrow' hchild hchild' hne =>
    hstep.siblings hvalid hfamilies hrow hrow' hchild hchild' hne
  alone := by
    intro worker worker' active active' hactive hactive' hsame
    rcases hstep.step.job_cases hactive with ⟨old, hold, hjob⟩ | ⟨job, hevent, hworker, hjob⟩ <;>
      rcases hstep.step.job_cases hactive' with ⟨old', hold', hjob'⟩ | ⟨job', hevent', hworker', hjob'⟩
    · exact hfamilies.alone hold hold' (by rw [hjob, hjob', hsame])
    · exact absurd (by rw [hjob, hsame, hjob']) (hstep.alone job' worker old hevent' hold)
    · exact absurd (by rw [hjob', ← hsame, hjob]) (hstep.alone job worker' old' hevent hold')
    · rw [← hworker, ← hworker', Event.start.inj (hevent.symm.trans hevent')]
  informed := hstep.informed hvalid hfamilies

end

end Steps

/-! ## The result -/

/-- Executions that are nested form a forest. -/
lemma Nested.isForest (h : Nested db.placement) : db.IsForest := by
  have hlink : ∀ {id parent}, db.parentOf id = some parent → ∃ here, db.placement id = some here ∧
      here.parentExecutionId = some parent := by
    intro id parent hparent
    rw [parentOf_eq] at hparent
    exact Option.bind_eq_some_iff.mp hparent
  have hroot : ∀ id, db.rootOf id = (db.placement id).bind (·.rootExecutionId) := by
    intro id
    simp only [Database.rootOf, Database.placement]
    cases db.executions.get? id <;> rfl
  constructor
  · -- A parent is less deep.
    refine Subrelation.wf ?_ (measure fun id => ((db.placement id).map (·.depth)).getD 0).wf
    intro parent id hparent
    obtain ⟨here, hhere, hparent⟩ := hlink hparent
    obtain ⟨above, habove, hbelow⟩ := h.child hhere hparent
    change ((db.placement parent).map (·.depth)).getD 0 < ((db.placement id).map (·.depth)).getD 0
    simp [hhere, habove, hbelow.depth]
  · constructor
    · intro id parent hparent
      obtain ⟨here, hhere, hparent⟩ := hlink hparent
      obtain ⟨above, habove, hbelow⟩ := h.child hhere hparent
      simp [hroot, hhere, habove, hbelow.rootExecutionId]
    · intro id hparent
      rw [hroot]
      cases hhere : db.placement id with
      | none => rfl
      | some here =>
        rw [parentOf_eq, parents, hhere] at hparent
        exact (h.top hhere hparent).2.1
  · intro id parent row hrow hparent
    obtain ⟨here, hhere, hparent⟩ := hlink hparent
    cases (placement_of_get? hrow).symm.trans hhere
    obtain ⟨above, habove, hbelow⟩ := h.child hhere hparent
    obtain ⟨parentRow, hparentRow, rfl⟩ := exists_of_placement habove
    exact ⟨parentRow, hparentRow, hbelow.organizationId.symm⟩

section Runs

variable {events : List Event}

lemma families_of_run (hrun : Run (FamilyStep p) World.initial events w) : w.Families := by
  refine hrun.invariant (fun _ w => w.Families) families_initial ?_
  intro _ w _ _ hrun hfamilies hstep
  exact hstep.families (WorldRun.valid (hrun.mono fun _ _ _ h => h.step)) hfamilies

/-- **Nesting is well founded**: along a chain of parents the workflows are different, the depth of
a child is one more than that of its parent and at most the limit, everything below a root names it,
and no step has two active children. -/
theorem nesting_wellFounded (hrun : Run (FamilyStep p) World.initial events w) :
    (∀ id ancestor row above, Descends w.db.parentOf id ancestor →
      w.db.executions.get? id = some row → w.db.executions.get? ancestor = some above →
      above.workflowId ≠ row.workflowId) ∧
    (∀ id parent row, w.db.executions.get? id = some row → row.parentExecutionId = some parent →
      ∃ above, w.db.executions.get? parent = some above ∧ row.depth = above.depth + 1 ∧
        row.depth ≤ Subworkflow.maxDepth) ∧
    (WellFounded fun parent id => w.db.parentOf id = some parent) ∧
    (∀ id root row rootRow, Descends w.db.parentOf id root → w.db.executions.get? id = some row →
      w.db.executions.get? root = some rootRow → rootRow.parentExecutionId = none →
      row.rootExecutionId = some root) ∧
    ∀ step id id' row row', w.db.executions.get? id = some row →
      w.db.executions.get? id' = some row' → row.parentStepExecutionId = some step →
      row'.parentStepExecutionId = some step → row.status.isActive = true →
      row'.status.isActive = true → id = id' := by
  have hfamilies := families_of_run hrun
  have hforest := hfamilies.nested.isForest
  refine ⟨?_, ?_, hforest.wellFounded, ?_, ?_⟩
  · intro id ancestor row above hdescends hrow habove
    rw [parentOf_eq] at hdescends
    exact hfamilies.nested.workflows hdescends (placement_of_get? hrow)
      (placement_of_get? habove)
  · intro id parent row hrow hparent
    obtain ⟨place, hplace, hbelow⟩ := hfamilies.nested.child (placement_of_get? hrow) hparent
    obtain ⟨above, habove, rfl⟩ := exists_of_placement hplace
    exact ⟨above, habove, hbelow.depth, hbelow.depth_le⟩
  · intro id root row rootRow hdescends hrow hroot hparent
    have hnone : w.db.rootOf root = none := by
      refine hforest.rooted.of_none ?_
      rw [Database.parentOf, hroot, Option.bind_some, hparent]
    have hlabel := hdescends.root_eq hforest.rooted
    rw [hnone, Database.rootOf, hrow] at hlabel
    exact hlabel
  · intro step id id' row row' hrow hrow' hchild hchild' hactive hactive'
    by_contra hne
    obtain ⟨hdiffer, hearlier⟩ := hfamilies.siblings hrow hrow' hchild hchild' hne
    obtain ⟨-, hearlier'⟩ := hfamilies.siblings hrow' hrow hchild' hchild (Ne.symm hne)
    rcases Nat.lt_or_gt_of_ne hdiffer with hlt | hgt
    · exact absurd (hactive.symm.trans (hearlier hlt)) (by simp)
    · exact absurd (hactive'.symm.trans (hearlier' hgt)) (by simp)

/-- **A request to cancel misses nothing below an execution, and leaves other organizations alone**,
in every state of the system. -/
theorem cancel_misses_nothing (hrun : Run (FamilyStep p) World.initial events w) {top : String}
    {topRow : ExecutionRow} (htop : w.db.executions.get? top = some topRow)
    (hmode : topRow.executionMode = .real) (hactive : topRow.status.isActive = true) (clock : ℕ) :
    ∃ db', ExecutionsService.cancel p clock w.db topRow.organizationId top = .ok db' ∧
      (∀ id row, w.db.executions.get? id = some row → w.db.InSubtree top id →
        ∃ row', db'.executions.get? id = some row' ∧ row'.status.isActive = false) ∧
      (∀ id row, row.organizationId ≠ topRow.organizationId →
        (db'.executions.get? id = some row ↔ w.db.executions.get? id = some row)) ∧
      ∀ id approval row, w.db.approvals.get? id = some approval → approval.status = .pending →
        w.db.executions.get? approval.executionId = some row →
        w.db.InSubtree top approval.executionId →
        db'.approvals.get? id = some { approval with status := .cancelled } := by
  obtain ⟨db', hcancel, hrows, happrovals⟩ :=
    ExecutionsService.cancel_eq p clock htop rfl hmode hactive
  have hforest := (families_of_run hrun).nested.isForest
  refine ⟨db', hcancel, fun id row hrow hin => ?_, fun id row hother => ⟨fun hrow => ?_, fun hrow => ?_⟩,
    fun id approval row happroval hpending hrow hin => ?_⟩
  · -- What is below and active is swept.
    refine ⟨_, by rw [hrows, hrow, Option.map_some], ?_⟩
    split_ifs with hswept
    · rfl
    · exact Bool.eq_false_iff.mpr fun hactive =>
        hswept ⟨hforest.swept htop rfl hrow hin, hactive⟩
  · rw [hrows, Option.map_eq_some_iff] at hrow
    obtain ⟨old, hold, rfl⟩ := hrow
    split_ifs at hother ⊢ with hswept
    · exact absurd hswept.1.1 hother
    · exact hold
  · rw [hrows, hrow, Option.map_some, if_neg fun hswept => hother hswept.1.1]
  · have hswept := hforest.swept htop rfl hrow hin
    rw [happrovals id approval happroval, if_pos ⟨hpending, inTree_iff.mpr ⟨row, hrow, hswept⟩⟩]

end Runs

/-! ## Small histories -/

/-- The event is as the services of the API make it: no execution with a parent is created, and none
is put into the queue whatever its status is. -/
def Event.isServed : Event → Bool
  | .api (.create row _) => row.parentExecutionId.isNone && row.parentStepExecutionId.isNone &&
      row.rootExecutionId.isNone && Decidable.decide (row.depth = 0)
  | .api write => write.requeues.isNone
  | _ => true

lemma ServedStep.of_isServed (hstep : WorldStep p w event w') (hserved : event.isServed = true) :
    ServedStep p w event w' where
  step := hstep
  creates_top := by
    rintro row webhook rfl
    simpa [Event.isServed, and_assoc] using hserved
  requeues_top := by
    rintro write id row rfl hrequeues _
    cases write with
    | create => cases hrequeues
    | _ =>
      simp only [Event.isServed, hrequeues] at hserved
      cases hserved

/-- A step of a worker that is alone. -/
lemma SoloStep.of_single (hsingle : w.Single worker) (hstep : WorldStep p w event w')
    (hserved : event.isServed = true) (hstarts : event.startsOn worker = true) :
    SoloStep p w event w' := by
  refine { ServedStep.of_isServed hstep hserved with alone := ?_ }
  rintro job other active rfl hactive
  have hidle : w.jobs job.worker = none := by
    cases hstep with
    | start hidle => exact hidle
  rw [of_decide_eq_true hstarts, ← hsingle other active hactive, hactive] at hidle
  cases hidle

/-- No execution ends with the event. -/
def Event.isQuiet : Event → Bool
  | .statement _ (.transitionTerminal ..) _ | .statement _ (.cancelChild ..) _ => false
  | .statement .. | .start _ | .api (.create ..) => true
  | _ => false

lemma FamilyStep.of_quiet (hstep : SoloStep p w event w') (hquiet : event.isQuiet = true) :
    FamilyStep p w event w' where
  toSoloStep := hstep
  lasts := by
    intro id row row' hrow hrow' _ hactive hended
    obtain ⟨now, -, row₁, hrow₁, hmaybe⟩ := hstep.step.execution_cases hrow
    cases hrow₁.symm.trans hrow'
    rcases hmaybe.status_cases with hsame | hwrites
    · rw [hsame, hactive] at hended
      cases hended
    · unfold Event.writesStatus at hwrites
      split at hwrites <;> simp_all [Event.isQuiet, ExecutionStatus.isActive]

/-- The oracle of a run that starts a child. -/
def childOracle (id workflowId : String) : Oracle where
  freshId := id
  config := .ok (.obj [("workflowId", .str workflowId), ("versionPolicy", .str "PUBLISHED")])

/-- A workflow has called another one. -/
lemma exists_called_run :
    ∃ events w row child, Run (FamilyStep callPlatform) World.initial events w ∧
      w.db.executions.get? "run" = some row ∧ row.organizationId = "org" ∧
      row.executionMode = .real ∧ row.status.isActive = true ∧
      w.db.executions.get? "child" = some child ∧ child.parentExecutionId = some "run" ∧
      child.status.isActive = true := by
  have hscript : (script (actIf (World.act callPlatform) fun _ event =>
      event.isServed ∧ event.startsOn "a" ∧ event.isQuiet) World.initial
      (trialStart "a" ++ statements "a" 26 (childOracle "child" "callee"))).any (fun done =>
        (∃ row ∈ done.2.db.executions.get? "run", row.organizationId = "org" ∧
          row.executionMode = .real ∧ row.status.isActive) ∧
        ∃ row ∈ done.2.db.executions.get? "child", row.parentExecutionId = some "run" ∧
          row.status.isActive) := by
    decide +kernel
  obtain ⟨events, w, hrun, ⟨row, hrow, horganization, hmode, hactive⟩, child, hchild, hparent,
    hchildActive⟩ := World.single_initial.exists_run _ (fun _ _ _ hsingle hstep hgood =>
      ⟨FamilyStep.of_quiet (.of_single hsingle hstep hgood.1 hgood.2.1) hgood.2.2, hgood.2.1⟩) hscript
  exact ⟨events, w, row, child, hrun, hrow, horganization, hmode, hactive, hchild, hparent,
    hchildActive⟩

/-- Cancelling the calling workflow cancels the called one. -/
theorem cancel_misses_nothing_called :
    ∃ w : World, (w.db.executions.get? "child").any (·.status.isActive) = true ∧
      ∃ db', ExecutionsService.cancel callPlatform 5 w.db "org" "run" = .ok db' ∧
        ∃ child, db'.executions.get? "child" = some child ∧ child.status.isActive = false := by
  obtain ⟨events, w, row, child, hrun, hrow, horganization, hmode, hactive, hchild, hparent,
    hchildActive⟩ := exists_called_run
  obtain ⟨db', hcancel, hbelow, -⟩ := cancel_misses_nothing hrun hrow hmode hactive 5
  have hin : w.db.InSubtree "run" "child" :=
    .inr (.single (by rw [Database.parentOf, hchild, Option.bind_some, hparent]))
  exact ⟨w, by simp [hchild, hchildActive], db', horganization ▸ hcancel, hbelow "child" child hchild hin⟩

/-- A workflow calls another one. -/
theorem called_workflow_nested :
    ∃ events w row, Run (FamilyStep callPlatform) World.initial events w ∧
      w.db.executions.get? "child" = some row ∧ row.parentExecutionId = some "run" ∧
      row.depth ≤ Subworkflow.maxDepth := by
  obtain ⟨events, w, -, child, hrun, -, -, -, -, hchild, hparent, -⟩ := exists_called_run
  obtain ⟨above, -, -, hdepth⟩ := (nesting_wellFounded hrun).2.1 "child" "run" child hchild hparent
  exact ⟨events, w, child, hrun, hchild, hparent, hdepth⟩

/-- A workflow that calls another one, up to five times. -/
def patientWorkflow : WorkflowDefinition where
  json := callWorkflow.json
  steps := ⟨[⟨"call", .executeWorkflow, 1, callConfig, some (.obj [("maxAttempts", .num 5)])⟩],
    List.nodup_singleton _⟩

/-- Worker `a` runs the execution `"run"`, which starts the child if it starts one. -/
def callRun (count : ℕ) (child : String) : List Action :=
  .start (trialJob "a") :: statements "a" count (childOracle child "callee") ++ [.stop "a"]

/-- **Of two children with the same time the older one may count as the newest.**  It is cancelled in
the millisecond in which it was created; the execution is run two times more, and each run starts a
child, as it reads the cancelled one. -/
theorem step_has_two_active_children :
    ∃ events w first second step, Run (SoloStep (trialPlatform patientWorkflow)) World.initial events w ∧
      w.db.executions.get? "second" = some first ∧ w.db.executions.get? "third" = some second ∧
      first.parentStepExecutionId = some step ∧ second.parentStepExecutionId = some step ∧
      first.status.isActive = true ∧ second.status.isActive = true := by
  have hscript : (script (actIf (World.act (trialPlatform patientWorkflow)) fun _ event =>
      event.isServed ∧ event.startsOn "a") World.initial
      (.api (.create (newExecution "run" "org" "workflow" "version" .queued 0) false) ::
        callRun 26 "first" ++ [.api (.cancel "first" "org")] ++ callRun 25 "second" ++
        callRun 25 "third")).any (fun done =>
        ∃ first ∈ done.2.db.executions.get? "second", ∃ second ∈ done.2.db.executions.get? "third",
          ∃ step ∈ first.parentStepExecutionId, second.parentStepExecutionId = some step ∧
            first.status.isActive ∧ second.status.isActive) := by
    decide +kernel
  obtain ⟨events, w, hrun, first, hfirst, second, hsecond, step, hstep, hstep', hactive, hactive'⟩ :=
    World.single_initial.exists_run _ (fun _ _ _ hsingle hstep hgood =>
      ⟨SoloStep.of_single hsingle hstep hgood.1 hgood.2, hgood.2⟩) hscript
  exact ⟨events, w, first, second, step, hrun, hfirst, hsecond, hstep, hstep', hactive, hactive'⟩

end Flowmind
