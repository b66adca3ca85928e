import Flowmind.Engine.Rows

/-!
# Executions, their steps and their references

The three tables that retention deletes from, with the foreign keys of the schema and what the data
base does about them when an execution is deleted:

* its steps, and the reuse rows for which it is the recovery, are deleted with it (`CASCADE`);
* links to it as parent, root or retried execution, and to its steps, are set to null (`SET NULL`);
* a replay of it, and a reuse row that draws on it or on one of its steps, forbids it (`RESTRICT`).

`Database.holders` lists what forbids a deletion: each holder is an execution, which gives its hold
up by being deleted itself.  Hence a list of executions can be deleted one after the other exactly
if each holder of a listed execution is listed no later (`deleteExecutions_isOk_iff`), and the rows
left are those without the listed executions (`eq_without_of_deleteExecutions`).  The cascades are
carried out before a restriction is checked, as the constraints were created in that order.
-/

namespace Flowmind.Retention

open Store

/-- The columns of an execution that retention reads or writes. -/
structure Execution where
  id : String
  organizationId : String
  status : ExecutionStatus
  createdAt : ℕ
  completedAt : Option ℕ
  depth : ℕ
  parentExecutionId : Option String
  parentStepExecutionId : Option String
  rootExecutionId : Option String
  retryOfExecutionId : Option String
  replayOfExecutionId : Option String
  inputJson : Json
  contextJson : Json
  outputJson : Option Json
  errorJson : Option Json

/-- The columns of a step that retention reads or writes. -/
structure StepExecution where
  id : String
  organizationId : String
  executionId : String
  inputJson : Json
  outputJson : Option Json
  errorJson : Option Json
  debugJson : Option Json

/-- A step that a recovery takes over from the execution it recovers. -/
structure ExecutionStepReuse where
  id : String
  organizationId : String
  recoveryExecutionId : String
  sourceExecutionId : String
  sourceStepExecutionId : String

structure Database where
  executions : Table Execution (·.id)
  steps : Table StepExecution (·.id)
  reuses : Table ExecutionStepReuse (·.id)

/-- Two tables with the same rows are the same. -/
lemma table_ext {ρ κ : Type*} {key : ρ → κ} {t t' : Table ρ key} (h : t.rows = t'.rows) : t = t' := by
  cases t
  cases h
  rfl

variable {db db' : Database}

@[ext]
lemma Database.ext (hexecutions : db.executions.rows = db'.executions.rows)
    (hsteps : db.steps.rows = db'.steps.rows) (hreuses : db.reuses.rows = db'.reuses.rows) :
    db = db' := by
  cases db
  cases db'
  simp only [Database.mk.injEq]
  exact ⟨table_ext hexecutions, table_ext hsteps, table_ext hreuses⟩

/-! ## Foreign keys -/

/-- The executions that an execution is linked to. -/
def Execution.links (row : Execution) : List String :=
  row.parentExecutionId.toList ++ row.rootExecutionId.toList ++ row.retryOfExecutionId.toList ++
    row.replayOfExecutionId.toList

/-- The links to what is deleted are set to null, except that to the replayed execution. -/
def Execution.setNull (gone goneStep : String → Bool) (row : Execution) : Execution :=
  { row with
    parentExecutionId := row.parentExecutionId.filter fun id => !gone id
    rootExecutionId := row.rootExecutionId.filter fun id => !gone id
    retryOfExecutionId := row.retryOfExecutionId.filter fun id => !gone id
    parentStepExecutionId := row.parentStepExecutionId.filter fun id => !goneStep id }

namespace Database

/-- There is an execution with the id. -/
def has (db : Database) (id : String) : Prop := ∃ row ∈ db.executions.rows, row.id = id

/-- There is a step with the id. -/
def hasStep (db : Database) (id : String) : Prop := ∃ step ∈ db.steps.rows, step.id = id

instance (db : Database) (id : String) : Decidable (db.has id) :=
  inferInstanceAs (Decidable (∃ row ∈ db.executions.rows, row.id = id))

instance (db : Database) (id : String) : Decidable (db.hasStep id) :=
  inferInstanceAs (Decidable (∃ step ∈ db.steps.rows, step.id = id))

/-- Every reference is to a row that is there. -/
structure References (db : Database) : Prop where
  links : ∀ row ∈ db.executions.rows, ∀ id ∈ row.links, db.has id
  parentStep : ∀ row ∈ db.executions.rows, ∀ id ∈ row.parentStepExecutionId.toList, db.hasStep id
  execution : ∀ step ∈ db.steps.rows, db.has step.executionId
  recovery : ∀ reuse ∈ db.reuses.rows, db.has reuse.recoveryExecutionId
  source : ∀ reuse ∈ db.reuses.rows, db.has reuse.sourceExecutionId
  sourceStep : ∀ reuse ∈ db.reuses.rows, db.hasStep reuse.sourceStepExecutionId

/-- The step is one of an execution that is deleted. -/
def isStepOf (db : Database) (gone : String → Bool) (id : String) : Bool :=
  db.steps.rows.any fun step => decide (step.id = id) && gone step.executionId

/-- The rows without some executions. -/
def without (db : Database) (gone : String → Bool) : Database where
  executions := (db.executions.filter fun row => !gone row.id).updateMany (fun _ => true)
    (Execution.setNull gone (db.isStepOf gone))
  steps := db.steps.filter fun step => !gone step.executionId
  reuses := db.reuses.filter fun reuse => !gone reuse.recoveryExecutionId

/-- The reuse row draws on an execution or on one of its steps. -/
def draws (db : Database) (reuse : ExecutionStepReuse) (id : String) : Bool :=
  decide (reuse.sourceExecutionId = id) ||
    db.isStepOf (fun executionId => decide (executionId = id)) reuse.sourceStepExecutionId

/-- The executions that hold on to an execution: its replays, and the recoveries that draw on it. -/
def holders (db : Database) (id : String) : List String :=
  (db.executions.rows.filter fun row => decide (row.replayOfExecutionId = some id)).map (·.id) ++
    (db.reuses.rows.filter fun reuse => db.draws reuse id).map (·.recoveryExecutionId)

end Database

/-- Why an execution is not deleted. -/
inductive DeleteError where
  | recordNotFound
  | foreignKeyViolation
deriving DecidableEq, Repr

/-- `execution.delete`. -/
def deleteExecution (db : Database) (id : String) : Except DeleteError Database :=
  if ¬ db.has id then .error .recordNotFound
  else if ∃ owner ∈ db.holders id, owner ≠ id then .error .foreignKeyViolation
  else .ok (db.without fun other => decide (other = id))

/-- Some executions are deleted one after the other. -/
def deleteExecutions (ids : List String) (db : Database) : Except DeleteError Database :=
  ids.foldlM deleteExecution db

/-! ## What is left -/

namespace Database

variable {gone gone' : String → Bool}

@[simp] lemma rows_executions_without : (db.without gone).executions.rows =
    (db.executions.rows.filter fun row => !gone row.id).map
      (Execution.setNull gone (db.isStepOf gone)) := rfl

@[simp] lemma rows_steps_without :
    (db.without gone).steps.rows = db.steps.rows.filter fun step => !gone step.executionId := rfl

@[simp] lemma rows_reuses_without : (db.without gone).reuses.rows =
    db.reuses.rows.filter fun reuse => !gone reuse.recoveryExecutionId := rfl

variable {id : String}

@[simp] lemma has_without : (db.without gone).has id ↔ db.has id ∧ gone id = false := by
  simp only [has, rows_executions_without, List.mem_map, List.mem_filter, Bool.not_eq_true']
  constructor
  · rintro ⟨_, ⟨row, ⟨hrow, hgone⟩, rfl⟩, rfl⟩
    exact ⟨⟨row, hrow, rfl⟩, hgone⟩
  · rintro ⟨⟨row, hrow, rfl⟩, hgone⟩
    exact ⟨_, ⟨row, ⟨hrow, hgone⟩, rfl⟩, rfl⟩

lemma isStepOf_eq_true : db.isStepOf gone id = true ↔
    ∃ step ∈ db.steps.rows, step.id = id ∧ gone step.executionId = true := by
  simp [isStepOf]

/-- A step that is left is of an execution that is left. -/
lemma isStepOf_without : (db.without gone).isStepOf gone' id =
    db.isStepOf (fun executionId => !gone executionId && gone' executionId) id := by
  rw [Bool.eq_iff_iff, isStepOf_eq_true, isStepOf_eq_true]
  simp only [rows_steps_without, List.mem_filter, Bool.and_eq_true]
  constructor
  · rintro ⟨step, ⟨hstep, hleft⟩, rfl, hgone⟩
    exact ⟨step, hstep, rfl, hleft, hgone⟩
  · rintro ⟨step, hstep, rfl, hleft, hgone⟩
    exact ⟨step, ⟨hstep, hleft⟩, rfl, hgone⟩

lemma isStepOf_or (id : String) :
    (db.isStepOf gone id || db.isStepOf (fun e => !gone e && gone' e) id) =
      db.isStepOf (fun e => gone e || gone' e) id := by
  rw [Bool.eq_iff_iff, Bool.or_eq_true, isStepOf_eq_true, isStepOf_eq_true, isStepOf_eq_true]
  constructor
  · rintro (⟨step, hstep, hid, h⟩ | ⟨step, hstep, hid, h⟩)
    · exact ⟨step, hstep, hid, by simp [h]⟩
    · exact ⟨step, hstep, hid, by simp_all⟩
  · rintro ⟨step, hstep, hid, h⟩
    cases hgone : gone step.executionId with
    | true => exact .inl ⟨step, hstep, hid, hgone⟩
    | false => exact .inr ⟨step, hstep, hid, by simpa [hgone] using h⟩

/-- Deleting twice is deleting at once. -/
lemma without_without : (db.without gone).without gone' = db.without fun id => gone id || gone' id := by
  ext1
  · simp only [rows_executions_without, List.filter_map, List.filter_filter, List.map_map]
    have hrows : (db.executions.rows.filter fun row =>
        ((fun row => !gone' row.id) ∘ Execution.setNull gone (db.isStepOf gone)) row && !gone row.id) =
        db.executions.rows.filter fun row => !(gone row.id || gone' row.id) :=
      List.filter_congr fun row _ => by simp [Execution.setNull, Bool.and_comm]
    rw [hrows]
    refine List.map_congr_left fun row _ => ?_
    simp only [Function.comp_apply, Execution.setNull, Option.filter_filter, isStepOf_without,
      ← Bool.not_or, isStepOf_or]
  · simp [Bool.and_comm]
  · simp [Bool.and_comm]

lemma without_of_forall (h : ∀ id, gone id = false) : db.without gone = db := by
  have hgone : gone = fun _ => false := funext h
  subst hgone
  have hstep : db.isStepOf (fun _ => false) = fun _ => false := by
    funext id
    simp [isStepOf]
  have hkeep : ∀ link : Option String, (link.filter fun _ => true) = link := by
    intro link
    cases link <;> rfl
  have hnull : Execution.setNull (fun _ => false) (fun _ => false) = id := by
    funext row
    simp [Execution.setNull, hkeep]
  ext1 <;> simp [hstep, hnull]

lemma mem_holders {owner : String} : owner ∈ db.holders id ↔
    (∃ row ∈ db.executions.rows, row.replayOfExecutionId = some id ∧ row.id = owner) ∨
      ∃ reuse ∈ db.reuses.rows, db.draws reuse id = true ∧ reuse.recoveryExecutionId = owner := by
  simp [holders, and_assoc]

lemma draws_without {reuse : ExecutionStepReuse} (hid : gone id = false) :
    (db.without gone).draws reuse id = db.draws reuse id := by
  have heq : (fun e => !gone e && decide (e = id)) = fun e => decide (e = id) := by
    funext e
    by_cases he : e = id
    · simp [he, hid]
    · simp [he]
  rw [draws, draws, isStepOf_without, heq]

/-- Who is deleted holds on to nothing. -/
lemma mem_holders_without {owner : String} (hid : gone id = false) :
    owner ∈ (db.without gone).holders id ↔ owner ∈ db.holders id ∧ gone owner = false := by
  simp only [mem_holders, draws_without hid, rows_executions_without, rows_reuses_without,
    List.mem_map, List.mem_filter, Bool.not_eq_true']
  constructor
  · rintro (⟨_, ⟨row, ⟨hrow, hgone⟩, rfl⟩, hreplay, rfl⟩ | ⟨reuse, ⟨hreuse, hgone⟩, hdraws, rfl⟩)
    · exact ⟨.inl ⟨row, hrow, hreplay, rfl⟩, hgone⟩
    · exact ⟨.inr ⟨reuse, hreuse, hdraws, rfl⟩, hgone⟩
  · rintro ⟨⟨row, hrow, hreplay, rfl⟩ | ⟨reuse, hreuse, hdraws, rfl⟩, hgone⟩
    · exact .inl ⟨_, ⟨row, ⟨hrow, hgone⟩, rfl⟩, hreplay, rfl⟩
    · exact .inr ⟨reuse, ⟨hreuse, hgone⟩, hdraws, rfl⟩

/-- **The foreign keys still hold** after a deletion that nobody left holds on to. -/
theorem References.without (h : db.References)
    (hheld : ∀ id owner, gone id = true → owner ∈ db.holders id → gone owner = true) :
    (db.without gone).References := by
  have hstep : ∀ id, db.hasStep id → db.isStepOf gone id = false → (db.without gone).hasStep id := by
    rintro _ ⟨step, hmem, rfl⟩ hleft
    refine ⟨step, ?_, rfl⟩
    rw [rows_steps_without, List.mem_filter]
    refine ⟨hmem, ?_⟩
    cases hgone : gone step.executionId with
    | false => rfl
    | true => exact absurd (isStepOf_eq_true.mpr ⟨step, hmem, rfl, hgone⟩) (by simp [hleft])
  constructor
  · intro row hrow id hid
    rw [rows_executions_without, List.mem_map] at hrow
    obtain ⟨row, hrow, rfl⟩ := hrow
    rw [List.mem_filter, Bool.not_eq_true'] at hrow
    have hlinks := h.links row hrow.1 id
    simp only [Execution.links, Execution.setNull, List.mem_append, Option.mem_toList,
      Option.filter_eq_some_iff, Bool.not_eq_true'] at hid hlinks
    rw [has_without]
    rcases hid with ((hid | hid) | hid) | hid
    · exact ⟨hlinks (by simp [hid.1]), hid.2⟩
    · exact ⟨hlinks (by simp [hid.1]), hid.2⟩
    · exact ⟨hlinks (by simp [hid.1]), hid.2⟩
    · -- The replayed execution is not deleted, since the replay is not.
      refine ⟨hlinks (.inr hid), ?_⟩
      by_contra hgone
      have hheld' := hheld id row.id (by simpa using hgone)
        (mem_holders.mpr (.inl ⟨row, hrow.1, hid, rfl⟩))
      simp [hrow.2] at hheld'
  · intro row hrow id hid
    rw [rows_executions_without, List.mem_map] at hrow
    obtain ⟨row, hrow, rfl⟩ := hrow
    simp only [Execution.setNull, Option.mem_toList, Option.filter_eq_some_iff,
      Bool.not_eq_true'] at hid
    exact hstep id (h.parentStep row (List.mem_filter.mp hrow).1 id (by simp [hid.1])) hid.2
  · intro step hmem
    rw [rows_steps_without, List.mem_filter, Bool.not_eq_true'] at hmem
    exact has_without.mpr ⟨h.execution step hmem.1, hmem.2⟩
  · intro reuse hmem
    rw [rows_reuses_without, List.mem_filter, Bool.not_eq_true'] at hmem
    exact has_without.mpr ⟨h.recovery reuse hmem.1, hmem.2⟩
  · intro reuse hmem
    rw [rows_reuses_without, List.mem_filter, Bool.not_eq_true'] at hmem
    refine has_without.mpr ⟨h.source reuse hmem.1, ?_⟩
    by_contra hgone
    have hheld' := hheld reuse.sourceExecutionId reuse.recoveryExecutionId (by simpa using hgone)
      (mem_holders.mpr (.inr ⟨reuse, hmem.1, by simp [draws], rfl⟩))
    simp [hmem.2] at hheld'
  · intro reuse hmem
    rw [rows_reuses_without, List.mem_filter, Bool.not_eq_true'] at hmem
    refine hstep _ (h.sourceStep reuse hmem.1) ?_
    by_contra hgone
    obtain ⟨step, hstep', hid, hgone'⟩ := isStepOf_eq_true.mp (by simpa using hgone)
    have hdraws : db.draws reuse step.executionId = true := by
      simp only [draws, Bool.or_eq_true]
      exact .inr (isStepOf_eq_true.mpr ⟨step, hstep', hid, by simp⟩)
    have hheld' := hheld _ reuse.recoveryExecutionId hgone'
      (mem_holders.mpr (.inr ⟨reuse, hmem.1, hdraws, rfl⟩))
    simp [hmem.2] at hheld'

end Database

/-! ## Deleting one after the other -/

lemma deleteExecution_eq_ok_iff {id : String} :
    deleteExecution db id = .ok db' ↔ db.has id ∧ (∀ owner ∈ db.holders id, owner = id) ∧
      db' = db.without fun other => decide (other = id) := by
  unfold deleteExecution
  split_ifs with hhas hheld
  · simp only [false_iff, not_and]
    intro _ hnone
    obtain ⟨owner, howner, hne⟩ := hheld
    exact absurd (hnone owner howner) hne
  · simp only [Except.ok.injEq]
    refine ⟨fun h => ⟨hhas, fun owner howner => ?_, h.symm⟩, fun h => h.2.2.symm⟩
    by_contra hne
    exact hheld ⟨owner, howner, hne⟩
  · simp [hhas]

variable {ids : List String}

lemma deleteExecutions_cons {id : String} :
    deleteExecutions (id :: ids) db = .ok db' ↔
      (db.has id ∧ ∀ owner ∈ db.holders id, owner = id) ∧
        deleteExecutions ids (db.without fun other => decide (other = id)) = .ok db' := by
  simp only [deleteExecutions, List.foldlM_cons]
  cases hdelete : deleteExecution db id with
  | ok db₁ =>
    obtain ⟨hhas, hheld, rfl⟩ := deleteExecution_eq_ok_iff.mp hdelete
    exact ⟨fun h => ⟨⟨hhas, hheld⟩, h⟩, fun h => h.2⟩
  | error error =>
    refine ⟨fun h => (by cases h), fun h => ?_⟩
    have hok := deleteExecution_eq_ok_iff.mpr ⟨h.1.1, h.1.2, rfl⟩
    rw [hdelete] at hok
    cases hok

lemma eq_without_of_deleteExecutions (h : deleteExecutions ids db = .ok db') :
    db' = db.without fun id => decide (id ∈ ids) := by
  induction ids generalizing db with
  | nil =>
    rw [Database.without_of_forall (by simp)]
    exact (Except.ok.inj h).symm
  | cons id ids ih =>
    rw [ih (deleteExecutions_cons.mp h).2, Database.without_without]
    simp only [List.mem_cons, Bool.decide_or]

/-- **A list of executions can be deleted one after the other** exactly if each holder of one of
them is deleted no later. -/
theorem deleteExecutions_isOk_iff (hnodup : ids.Nodup) (hhas : ∀ id ∈ ids, db.has id) :
    (∃ db', deleteExecutions ids db = .ok db') ↔
      ∀ id ∈ ids, ∀ owner ∈ db.holders id, ids.idxOf owner ≤ ids.idxOf id := by
  induction ids generalizing db with
  | nil => simp [deleteExecutions, pure, Except.pure]
  | cons id ids ih =>
    obtain ⟨hnot, hnodup⟩ := List.nodup_cons.mp hnodup
    have hne : ∀ other ∈ ids, other ≠ id := by
      rintro other hother rfl
      exact hnot hother
    have hleft : ∀ other ∈ ids, (db.without fun other => decide (other = id)).has other :=
      fun other hother =>
        Database.has_without.mpr ⟨hhas other (by simp [hother]), by simp [hne other hother]⟩
    have hrest := ih hnodup hleft
    simp only [deleteExecutions_cons, exists_and_left, hrest, hhas id (by simp), true_and,
      List.forall_mem_cons]
    refine and_congr ?_ (forall₂_congr fun other hother => ?_)
    · -- The first one waits for nobody else.
      refine forall₂_congr fun owner _ => ?_
      by_cases howner : owner = id
      · simp [howner]
      · simp [howner, Ne.symm howner]
    · have hgone : (decide (other = id)) = false := by simp [hne other hother]
      constructor
      · intro h owner howner
        by_cases hfirst : owner = id
        · simp [hfirst]
        · have hle := h owner ((Database.mem_holders_without hgone).mpr ⟨howner, by simp [hfirst]⟩)
          simpa [Ne.symm hfirst, Ne.symm (hne other hother)] using hle
      · intro h owner howner
        obtain ⟨howner, hfirst⟩ := (Database.mem_holders_without hgone).mp howner
        have hle := h owner howner
        have hfirst' : owner ≠ id := by simpa using hfirst
        simpa [Ne.symm hfirst', Ne.symm (hne other hother)] using hle

end Flowmind.Retention
