import Flowmind.Retention.Database
import Mathlib.Data.List.Sort

/-!
# The retention pass

`RetentionService.run` clears the payloads of old executions and deletes old executions that have
ended, each with what is linked to it directly: its descendants, retries and replays (`tree`).

* `deleteTree_isOk_iff` — which candidates can be deleted.  A candidate is looked at one link deep,
  so a replay of a replay holds on to a row of the tree and the transaction fails.
* `deletedIds` — what a pass deletes, said of the rows before it.
* `run_untouched_iff` — when a pass leaves the executions that have not ended alone.  Payloads are
  selected by age only, so an execution that waits for long loses its input and its context.
* `references_run` — the foreign keys hold after a pass, also after one that stops half way.

Both main results rest on what a deletion leaves: `Database.purge` of the executions deleted so far.
-/

namespace Flowmind.Retention

open Store

/-! ## Options and candidates -/

/-- A cutoff is `none` if the date is not valid. -/
structure RetentionOptions where
  organizationId : String
  payloadCutoff : Option ℕ
  metadataCutoff : Option ℕ
  batchSize : ℚ
  execute : Bool

/-- `validate`, at some time. -/
def validate (now : ℕ) (options : RetentionOptions) : Except String Unit :=
  if jsTrim options.organizationId = "" then .error "organizationId is required"
  else if options.batchSize.den ≠ 1 ∨ options.batchSize < 1 ∨ 1000 < options.batchSize then
    .error "batchSize must be between 1 and 1000"
  else if options.payloadCutoff.isNone || options.metadataCutoff.isNone then
    .error "valid cutoffs are required"
  else if options.payloadCutoff.any (now ≤ ·) || options.metadataCutoff.any (now ≤ ·) then
    .error "cutoffs must be in the past"
  else .ok ()

variable (options : RetentionOptions)

/-- `LIMIT`. -/
def RetentionOptions.limit : ℕ := options.batchSize.num.toNat

/-- `time < cutoff`. -/
def isBefore (time : ℕ) (cutoff : Option ℕ) : Bool := cutoff.any (time < ·)

/-- What stands in place of a payload that was cleared. -/
def tombstone : Json := .obj [("retained", .bool false)]

/-- `value = '{"retained":false}'::jsonb`. -/
def isTombstone : Json → Bool
  | .obj [(key, .bool false)] => decide (key = "retained")
  | _ => false

/-- `ORDER BY created_at ASC, id ASC`. -/
def oldestFirst (rows : List Execution) : List Execution :=
  rows.insertionSort fun row other =>
    row.createdAt < other.createdAt ∨ row.createdAt = other.createdAt ∧ row.id ≤ other.id

def payloadCandidates (db : Database) : List Execution :=
  (oldestFirst (db.executions.rows.filter fun row =>
    decide (row.organizationId = options.organizationId) &&
      isBefore row.createdAt options.payloadCutoff && !isTombstone row.inputJson)).take options.limit

/-- The execution is linked to a root as descendant, retry or replay. -/
def Execution.isRelated (rootId : String) (row : Execution) : Bool :=
  decide (row.rootExecutionId = some rootId) || decide (row.retryOfExecutionId = some rootId) ||
    decide (row.replayOfExecutionId = some rootId)

/-- The execution keeps a root it is linked to. -/
def Execution.isRecent (cutoff : Option ℕ) (row : Execution) : Bool :=
  row.status.isActive || row.completedAt.isNone ||
    row.completedAt.any fun time => cutoff.any (· ≤ time)

def rootCandidates (db : Database) : List Execution :=
  (oldestFirst (db.executions.rows.filter fun root =>
    decide (root.organizationId = options.organizationId) && root.rootExecutionId.isNone &&
      root.parentExecutionId.isNone && !root.status.isActive &&
      root.completedAt.any (isBefore · options.metadataCutoff) &&
      !db.executions.rows.any fun related =>
        decide (related.organizationId = root.organizationId) && related.isRelated root.id &&
          related.isRecent options.metadataCutoff)).take options.limit

/-! ## Deleting a tree -/

/-- The rows that are deleted with a root, the deepest ones first. -/
def tree (organizationId rootId : String) (db : Database) : List Execution :=
  (db.executions.rows.filter fun row => decide (row.organizationId = organizationId) &&
    (decide (row.id = rootId) || row.isRelated rootId)).insertionSort fun row other =>
      other.depth ≤ row.depth

/-- The reuse rows and the links of some executions are deleted. -/
def Database.unlink (organizationId : String) (ids : List String) (db : Database) : Database where
  executions := db.executions.updateMany
    (fun row => decide (row.organizationId = organizationId) && decide (row.id ∈ ids))
    fun row => { row with
      retryOfExecutionId := none
      replayOfExecutionId := none
      parentExecutionId := none
      rootExecutionId := none
      parentStepExecutionId := none }
  steps := db.steps
  reuses := db.reuses.filter fun reuse => !(decide (reuse.organizationId = organizationId) &&
    (decide (reuse.recoveryExecutionId ∈ ids) || decide (reuse.sourceExecutionId ∈ ids)))

/-- `deleteTree`; the transaction has no effect if it fails. -/
def deleteTree (organizationId rootId : String) (db : Database) : Except DeleteError Database :=
  let ids := (tree organizationId rootId db).map (·.id)
  if ids.isEmpty then .ok db else deleteExecutions ids (db.unlink organizationId ids)

/-- The trees are deleted one after the other, until one cannot be. -/
def deleteTrees (organizationId : String) : List String → Database → Except DeleteError Unit × Database
  | [], db => (.ok (), db)
  | rootId :: rootIds, db =>
    match deleteTree organizationId rootId db with
    | .error error => (.error error, db)
    | .ok db' => deleteTrees organizationId rootIds db'

/-! ## The pass -/

inductive RetentionMode where
  | dryRun | execute
deriving DecidableEq, Repr

/-- `RetentionReport`. -/
structure RetentionReport where
  mode : RetentionMode
  organizationId : String
  payloadCutoff : Option ℕ
  metadataCutoff : Option ℕ
  payloadCount : ℕ
  rootExecutionCount : ℕ
  estimatedJsonBytes : ℕ
  oldestPayloadAt : Option ℕ
  oldestExecutionAt : Option ℕ
  changedPayloads : ℕ
  changedRootExecutions : ℕ
  batchLimited : Bool

inductive RetentionError where
  | badRequest (message : String)
  | database (error : DeleteError)

def Execution.clear (row : Execution) : Execution :=
  { row with
    inputJson := tombstone, contextJson := tombstone, outputJson := some .null
    errorJson := some .null }

def StepExecution.clear (step : StepExecution) : StepExecution :=
  { step with
    inputJson := tombstone, outputJson := some .null, errorJson := some .null
    debugJson := some .null }

/-- The execution is one of those whose payload is cleared. -/
def isCleared (ids : List String) (row : Execution) : Bool :=
  decide (row.id ∈ ids) && decide (row.organizationId = options.organizationId) &&
    isBefore row.createdAt options.payloadCutoff

/-- The payloads of some executions and of their steps are cleared. -/
def clearPayloads (ids : List String) (db : Database) : Database where
  executions := db.executions.updateMany (isCleared options ids) Execution.clear
  steps := db.steps.updateMany
    (fun step => decide (step.organizationId = options.organizationId) &&
      decide (step.executionId ∈ ids)) StepExecution.clear
  reuses := db.reuses

/-- The bytes of a payload, from those of each column. -/
def payloadBytes (columnSize : Json → ℕ) (row : Execution) : ℕ :=
  columnSize row.inputJson + columnSize row.contextJson + row.outputJson.elim 0 columnSize +
    row.errorJson.elim 0 columnSize

/-- `run`, at some time. -/
def run (now : ℕ) (columnSize : Json → ℕ) (options : RetentionOptions) (db : Database) :
    Except RetentionError RetentionReport × Database :=
  match validate now options with
  | .error message => (.error (.badRequest message), db)
  | .ok () =>
    let candidateRoots := rootCandidates options db
    let payloadRows := payloadCandidates options db
    let report : RetentionReport := {
      mode := if options.execute then .execute else .dryRun
      organizationId := options.organizationId
      payloadCutoff := options.payloadCutoff
      metadataCutoff := options.metadataCutoff
      payloadCount := payloadRows.length
      rootExecutionCount := candidateRoots.length
      estimatedJsonBytes := (payloadRows.map (payloadBytes columnSize)).sum
      oldestPayloadAt := payloadRows.getLast?.map (·.createdAt)
      oldestExecutionAt := candidateRoots.getLast?.map (·.createdAt)
      changedPayloads := 0
      changedRootExecutions := 0
      batchLimited := decide ((payloadRows.length : ℚ) = options.batchSize) ||
        decide ((candidateRoots.length : ℚ) = options.batchSize) }
    if options.execute = false then (.ok report, db)
    else
      let ids := payloadRows.map (·.id)
      let cleared := if ids.isEmpty then db else clearPayloads options ids db
      match deleteTrees options.organizationId (candidateRoots.map (·.id)) cleared with
      | (.error error, db') => (.error (.database error), db')
      | (.ok (), db') =>
        (.ok { report with
          changedPayloads := db.executions.count (isCleared options ids)
          changedRootExecutions := candidateRoots.length }, db')

/-! ## What a deletion leaves -/

variable {db : Database} {organizationId : String} {ids : List String} {gone : String → Bool}

namespace Database

variable {gone' : String → Bool}

/-- The rows without some executions and without the reuse rows that draw on them. -/
def purge (organizationId : String) (gone : String → Bool) (db : Database) : Database :=
  { db.without gone with
    reuses := (db.without gone).reuses.filter fun reuse =>
      !(decide (reuse.organizationId = organizationId) && gone reuse.sourceExecutionId) }

lemma rows_reuses_purge : (db.purge organizationId gone).reuses.rows =
    db.reuses.rows.filter fun reuse => !gone reuse.recoveryExecutionId &&
      !(decide (reuse.organizationId = organizationId) && gone reuse.sourceExecutionId) := by
  simp only [purge, Table.filter, rows_reuses_without, List.filter_filter, Bool.and_comm]

lemma purge_purge : (db.purge organizationId gone).purge organizationId gone' =
    db.purge organizationId fun id => gone id || gone' id := by
  have hwithout : (db.without gone).without gone' = db.without fun id => gone id || gone' id :=
    without_without
  ext1
  · exact congrArg (·.executions.rows) hwithout
  · exact congrArg (·.steps.rows) hwithout
  · simp only [rows_reuses_purge, List.filter_filter]
    refine List.filter_congr fun reuse _ => ?_
    by_cases horganization : reuse.organizationId = organizationId
    · simp only [horganization]
      cases gone reuse.recoveryExecutionId <;> cases gone reuse.sourceExecutionId <;> simp
    · cases gone reuse.recoveryExecutionId <;> simp [horganization]

lemma purge_of_forall (h : ∀ id, gone id = false) : db.purge organizationId gone = db := by
  ext1
  · exact congrArg (·.executions.rows) (without_of_forall h)
  · exact congrArg (·.steps.rows) (without_of_forall h)
  · simp [rows_reuses_purge, h]

lemma has_purge {id : String} :
    (db.purge organizationId gone).has id ↔ db.has id ∧ gone id = false :=
  has_without

/-- The links of what is deleted do not matter. -/
lemma without_unlink : (db.unlink organizationId ids).without (fun id => decide (id ∈ ids)) =
    db.purge organizationId fun id => decide (id ∈ ids) := by
  ext1
  · simp only [rows_executions_without, unlink, Table.updateMany, List.filter_map, List.map_map]
    have hrows : (db.executions.rows.filter ((fun row => !decide (row.id ∈ ids)) ∘ fun row =>
        if decide (row.organizationId = organizationId) && decide (row.id ∈ ids) then
          { row with
            retryOfExecutionId := none, replayOfExecutionId := none, parentExecutionId := none
            rootExecutionId := none, parentStepExecutionId := none }
        else row)) = db.executions.rows.filter fun row => !decide (row.id ∈ ids) := by
      refine List.filter_congr fun row _ => ?_
      simp only [Function.comp_apply]
      split <;> rfl
    rw [hrows]
    refine List.map_congr_left fun row hrow => ?_
    have hnot : row.id ∉ ids := by simpa using (List.mem_filter.mp hrow).2
    simp only [Function.comp_apply, hnot, decide_false, Bool.and_false]
    rfl
  · rfl
  · simp only [rows_reuses_without, rows_reuses_purge, unlink, Table.filter, List.filter_filter]
    refine List.filter_congr fun reuse _ => ?_
    by_cases hrecovery : reuse.recoveryExecutionId ∈ ids <;> simp [hrecovery]

/-- An execution whose links are deleted is one of those. -/
lemma mem_rows_unlink {row : Execution} (h : row ∈ (db.unlink organizationId ids).executions.rows) :
    ∃ row' ∈ db.executions.rows, row'.id = row.id ∧
      (row = row' ∨ row'.id ∈ ids ∧ row.links = [] ∧ row.parentStepExecutionId = none) := by
  obtain ⟨row', hrow', rfl⟩ := List.mem_map.mp h
  split_ifs with hunlinked
  · rw [Bool.and_eq_true, decide_eq_true_eq, decide_eq_true_eq] at hunlinked
    exact ⟨row', hrow', rfl, .inr ⟨hunlinked.2, rfl, rfl⟩⟩
  · exact ⟨row', hrow', rfl, .inl rfl⟩

lemma mem_reuses_unlink {reuse : ExecutionStepReuse} :
    reuse ∈ (db.unlink organizationId ids).reuses.rows ↔ reuse ∈ db.reuses.rows ∧
      ¬ (reuse.organizationId = organizationId ∧
        (reuse.recoveryExecutionId ∈ ids ∨ reuse.sourceExecutionId ∈ ids)) := by
  simp [unlink, Table.filter, ← imp_iff_not_or]

lemma has_unlink {id : String} : (db.unlink organizationId ids).has id ↔ db.has id := by
  constructor
  · rintro ⟨row, hrow, rfl⟩
    obtain ⟨row', hrow', hid, -⟩ := mem_rows_unlink hrow
    exact ⟨row', hrow', hid⟩
  · rintro ⟨row, hrow, rfl⟩
    refine ⟨_, List.mem_map_of_mem hrow, ?_⟩
    split <;> rfl

lemma References.unlink (h : db.References) : (db.unlink organizationId ids).References := by
  have hreuse : ∀ reuse ∈ (db.unlink organizationId ids).reuses.rows, reuse ∈ db.reuses.rows :=
    fun reuse hmem => (mem_reuses_unlink.mp hmem).1
  constructor
  · intro row hrow id hid
    rw [has_unlink]
    obtain ⟨row', hrow', -, rfl | ⟨-, hlinks, -⟩⟩ := mem_rows_unlink hrow
    · exact h.links row hrow' id hid
    · simp [hlinks] at hid
  · intro row hrow id hid
    obtain ⟨row', hrow', -, rfl | ⟨-, -, hstep⟩⟩ := mem_rows_unlink hrow
    · exact h.parentStep row hrow' id hid
    · simp [hstep] at hid
  · intro step hstep
    exact has_unlink.mpr (h.execution step hstep)
  · intro reuse hmem
    exact has_unlink.mpr (h.recovery reuse (hreuse reuse hmem))
  · intro reuse hmem
    exact has_unlink.mpr (h.source reuse (hreuse reuse hmem))
  · intro reuse hmem
    exact h.sourceStep reuse (hreuse reuse hmem)

end Database

/-! ## Which trees can be deleted -/

section Tree

variable {db' : Database} {rootId : String}

/-- The ids of the rows that are deleted with a root, in the order in which they are. -/
def treeIds (organizationId rootId : String) (db : Database) : List String :=
  (tree organizationId rootId db).map (·.id)

lemma mem_tree {row : Execution} : row ∈ tree organizationId rootId db ↔
    row ∈ db.executions.rows ∧ row.organizationId = organizationId ∧
      (row.id = rootId ∨ row.isRelated rootId = true) := by
  simp [tree]

lemma nodup_treeIds : (treeIds organizationId rootId db).Nodup := by
  have hperm := (List.perm_insertionSort (fun row other : Execution => other.depth ≤ row.depth)
    (db.executions.rows.filter fun row => decide (row.organizationId = organizationId) &&
      (decide (row.id = rootId) || row.isRelated rootId))).map (·.id)
  exact hperm.nodup_iff.mpr (db.executions.nodup.sublist (List.filter_sublist.map _))

variable {id : String}

lemma exists_of_mem_treeIds (h : id ∈ treeIds organizationId rootId db) :
    ∃ row ∈ db.executions.rows, row.id = id ∧ row.organizationId = organizationId ∧
      (row.id = rootId ∨ row.isRelated rootId = true) := by
  obtain ⟨row, hrow, rfl⟩ := List.mem_map.mp h
  obtain ⟨hmem, horganization, hrelated⟩ := mem_tree.mp hrow
  exact ⟨row, hmem, rfl, horganization, hrelated⟩

lemma deleteTree_eq (organizationId rootId : String) (db : Database) :
    deleteTree organizationId rootId db =
    deleteExecutions (treeIds organizationId rootId db)
      (db.unlink organizationId (treeIds organizationId rootId db)) ∨
    treeIds organizationId rootId db = [] ∧ deleteTree organizationId rootId db = .ok db := by
  change (if (treeIds organizationId rootId db).isEmpty then _ else _) = _ ∨ _ ∧
    (if (treeIds organizationId rootId db).isEmpty then _ else _) = _
  split_ifs with hempty
  · exact .inr ⟨List.isEmpty_iff.mp hempty, rfl⟩
  · exact .inl rfl

/-- A tree that is deleted leaves nothing of it. -/
lemma eq_purge_of_deleteTree (h : deleteTree organizationId rootId db = .ok db') :
    db' = db.purge organizationId fun id => decide (id ∈ treeIds organizationId rootId db) := by
  rcases deleteTree_eq organizationId rootId db with heq | ⟨hnil, heq⟩
  · rw [← Database.without_unlink]
    exact eq_without_of_deleteExecutions (heq.symm.trans h)
  · rw [hnil, Database.purge_of_forall (by simp)]
    exact (Except.ok.inj (heq.symm.trans h)).symm

/-- No execution outside the tree replays one of it, and a reuse row that is not deleted at the
start and draws on one of it belongs to a recovery that is deleted no later. -/
def Deletable (organizationId rootId : String) (db : Database) : Prop :=
  (∀ row ∈ db.executions.rows, ∀ id ∈ treeIds organizationId rootId db,
    row.replayOfExecutionId = some id → row.id ∈ treeIds organizationId rootId db) ∧
  ∀ reuse ∈ db.reuses.rows, ∀ id ∈ treeIds organizationId rootId db, db.draws reuse id = true →
    reuse.organizationId = organizationId ∧
        (reuse.recoveryExecutionId ∈ treeIds organizationId rootId db ∨
          reuse.sourceExecutionId ∈ treeIds organizationId rootId db) ∨
      (treeIds organizationId rootId db).idxOf reuse.recoveryExecutionId ≤
        (treeIds organizationId rootId db).idxOf id

instance : Decidable (Deletable organizationId rootId db) := by
  unfold Deletable
  infer_instance

/-- What holds on to a row of the tree once the links are deleted. -/
lemma mem_holders_unlink {owner : String} :
    owner ∈ (db.unlink organizationId (treeIds organizationId rootId db)).holders id ↔
      (∃ row ∈ db.executions.rows, row.id ∉ treeIds organizationId rootId db ∧
        row.replayOfExecutionId = some id ∧ row.id = owner) ∨
      ∃ reuse ∈ db.reuses.rows, ¬ (reuse.organizationId = organizationId ∧
          (reuse.recoveryExecutionId ∈ treeIds organizationId rootId db ∨
            reuse.sourceExecutionId ∈ treeIds organizationId rootId db)) ∧
        db.draws reuse id = true ∧ reuse.recoveryExecutionId = owner := by
  rw [Database.mem_holders]
  refine or_congr ?_ ?_
  · constructor
    · rintro ⟨row, hrow, hreplay, rfl⟩
      obtain ⟨row', hrow', rfl⟩ := List.mem_map.mp hrow
      by_cases hmem : row'.id ∈ treeIds organizationId rootId db
      · -- The rows of the tree are of the organization, so their links are deleted.
        obtain ⟨row'', hrow'', hid, horganization, -⟩ := exists_of_mem_treeIds hmem
        rw [List.inj_on_of_nodup_map db.executions.nodup hrow'' hrow' hid] at horganization
        simp [hmem, horganization] at hreplay
      · simp only [hmem, decide_false, Bool.and_false] at hreplay ⊢
        exact ⟨row', hrow', hmem, hreplay, rfl⟩
    · rintro ⟨row, hrow, hnot, hreplay, rfl⟩
      refine ⟨row, List.mem_map.mpr ⟨row, hrow, ?_⟩, hreplay, rfl⟩
      simp [hnot]
  · have hdraws : ∀ reuse : ExecutionStepReuse,
        (db.unlink organizationId (treeIds organizationId rootId db)).draws reuse id =
          db.draws reuse id := fun _ => rfl
    simp only [hdraws, Database.mem_reuses_unlink, and_assoc]

lemma deletable_iff : Deletable organizationId rootId db ↔
    ∀ id ∈ treeIds organizationId rootId db,
      ∀ owner ∈ (db.unlink organizationId (treeIds organizationId rootId db)).holders id,
        (treeIds organizationId rootId db).idxOf owner ≤
          (treeIds organizationId rootId db).idxOf id := by
  constructor
  · rintro ⟨hreplays, hreuses⟩ id hid owner howner
    rcases mem_holders_unlink.mp howner with
      ⟨row, hrow, hnot, hreplay, rfl⟩ | ⟨reuse, hreuse, hkept, hdraws, rfl⟩
    · exact absurd (hreplays row hrow id hid hreplay) hnot
    · exact (hreuses reuse hreuse id hid hdraws).resolve_left hkept
  · intro h
    refine ⟨fun row hrow id hid hreplay => ?_, fun reuse hreuse id hid hdraws => ?_⟩
    · by_contra hnot
      have hle := h id hid row.id (mem_holders_unlink.mpr (.inl ⟨row, hrow, hnot, hreplay, rfl⟩))
      -- A row that is not in the list comes after all of them.
      rw [List.idxOf_of_notMem hnot] at hle
      exact absurd (List.idxOf_lt_length_of_mem hid) (by omega)
    · by_contra hkept
      rw [not_or] at hkept
      exact hkept.2 (h id hid _ (mem_holders_unlink.mpr (.inr ⟨reuse, hreuse, hkept.1, hdraws, rfl⟩)))

lemma has_of_mem_treeIds (h : id ∈ treeIds organizationId rootId db) :
    (db.unlink organizationId (treeIds organizationId rootId db)).has id := by
  obtain ⟨row, hrow, hid, -⟩ := exists_of_mem_treeIds h
  exact Database.has_unlink.mpr ⟨row, hrow, hid⟩

lemma exists_deleteTree_eq_ok_iff :
    (∃ db', deleteTree organizationId rootId db = .ok db') ↔ Deletable organizationId rootId db := by
  rw [deletable_iff, ← deleteExecutions_isOk_iff nodup_treeIds fun id hid => has_of_mem_treeIds hid]
  rcases deleteTree_eq organizationId rootId db with heq | ⟨hnil, heq⟩
  · rw [heq]
  · rw [heq, hnil]
    exact ⟨fun _ => ⟨_, rfl⟩, fun _ => ⟨_, rfl⟩⟩

/-- The foreign keys hold after a tree is deleted. -/
lemma references_deleteTree (hdb : db.References)
    (h : deleteTree organizationId rootId db = .ok db') : db'.References := by
  have hdeletable := deletable_iff.mp (exists_deleteTree_eq_ok_iff.mp ⟨db', h⟩)
  rw [eq_purge_of_deleteTree h, ← Database.without_unlink]
  refine hdb.unlink.without fun id owner hid howner => ?_
  rw [decide_eq_true_eq] at hid ⊢
  have hle := hdeletable id hid owner howner
  exact List.idxOf_lt_length_iff.mp (lt_of_le_of_lt hle (List.idxOf_lt_length_of_mem hid))

end Tree

/-! ## Candidates -/

variable {options : RetentionOptions} {row : Execution}

section Candidates

variable {root : Execution}

lemma mem_of_mem_oldestFirst {rows : List Execution} {n : ℕ} (h : row ∈ (oldestFirst rows).take n) :
    row ∈ rows :=
  (List.mem_insertionSort _).mp (List.mem_of_mem_take h)

lemma mem_of_mem_payloadCandidates (h : row ∈ payloadCandidates options db) :
    row ∈ db.executions.rows ∧ row.organizationId = options.organizationId ∧
      isBefore row.createdAt options.payloadCutoff = true ∧ isTombstone row.inputJson = false := by
  have hmem := mem_of_mem_oldestFirst h
  simpa [and_assoc] using hmem

/-- A candidate has ended before the cutoff, and so has what is linked to it. -/
lemma mem_of_mem_rootCandidates (h : root ∈ rootCandidates options db) :
    root ∈ db.executions.rows ∧ root.organizationId = options.organizationId ∧
      root.status.isActive = false ∧
      (root.completedAt.any (isBefore · options.metadataCutoff)) = true ∧
      ∀ related ∈ db.executions.rows, related.organizationId = root.organizationId →
        related.isRelated root.id = true → related.isRecent options.metadataCutoff = false := by
  have hmem := mem_of_mem_oldestFirst h
  simp only [List.mem_filter, Bool.and_eq_true, decide_eq_true_eq, Bool.not_eq_true',
    List.any_eq_false, not_and, Bool.not_eq_true] at hmem
  obtain ⟨hroot, ⟨⟨⟨⟨horganization, -⟩, -⟩, hstatus⟩, hcompleted⟩, hrelated⟩ := hmem
  exact ⟨hroot, horganization, hstatus, hcompleted, fun related hmem horganization hlink =>
    hrelated related hmem ⟨horganization, hlink⟩⟩

/-- The execution has ended before the cutoff. -/
def Execution.endedBefore (cutoff : Option ℕ) (row : Execution) : Bool :=
  !row.status.isActive && row.completedAt.any (isBefore · cutoff)

/-- What is not recent has ended before the cutoff, if that is valid. -/
lemma endedBefore_of_isRecent {cutoff : ℕ} (h : row.isRecent (some cutoff) = false) :
    row.endedBefore (some cutoff) = true := by
  simp only [Execution.isRecent, Bool.or_eq_false_iff] at h
  obtain ⟨⟨hstatus, hnone⟩, hcompleted⟩ := h
  cases hrow : row.completedAt with
  | none => simp [hrow] at hnone
  | some time =>
    have htime : time < cutoff := by simpa [hrow] using hcompleted
    simp [Execution.endedBefore, hstatus, hrow, isBefore, htime]

/-- The rows of the tree of a candidate have ended before the cutoff. -/
lemma endedBefore_of_mem_tree (hroot : root ∈ rootCandidates options db)
    (hrow : row ∈ tree options.organizationId root.id db) :
    row.endedBefore options.metadataCutoff = true := by
  obtain ⟨hmem, horganization, hstatus, hcompleted, hrelated⟩ := mem_of_mem_rootCandidates hroot
  obtain ⟨hrow, horganization', hid | hlink⟩ := mem_tree.mp hrow
  · rw [List.inj_on_of_nodup_map db.executions.nodup hrow hmem hid]
    simp [Execution.endedBefore, hstatus, hcompleted]
  · cases hcutoff : options.metadataCutoff with
    | none => simp [hcutoff, isBefore] at hcompleted
    | some cutoff =>
      rw [hcutoff] at hrelated
      exact endedBefore_of_isRecent
        (hrelated row hrow (horganization'.trans horganization.symm) hlink)

/-- **Which candidates can be deleted**: exactly those that `Deletable` describes, and then
everything that is deleted has ended before the cutoff. -/
theorem deleteTree_isOk_iff (hroot : root ∈ rootCandidates options db) :
    (∃ db', deleteTree options.organizationId root.id db = .ok db' ∧
      ∀ row ∈ db.executions.rows, ¬ db'.has row.id →
        row.endedBefore options.metadataCutoff = true) ↔
      Deletable options.organizationId root.id db := by
  rw [← exists_deleteTree_eq_ok_iff]
  refine exists_congr fun db' => and_iff_left_of_imp fun hdelete row hrow hgone => ?_
  rw [eq_purge_of_deleteTree hdelete, Database.has_purge, not_and, Bool.not_eq_false,
    decide_eq_true_eq] at hgone
  obtain ⟨row', hrow', hid⟩ := List.mem_map.mp (hgone ⟨row, hrow, rfl⟩)
  rw [← List.inj_on_of_nodup_map db.executions.nodup (mem_tree.mp hrow').1 hrow hid]
  exact endedBefore_of_mem_tree hroot hrow'

end Candidates

/-- An execution that has ended, as a replay or not. -/
def endedExecution (id : String) (createdAt : ℕ) (replayOf : Option String) : Execution where
  id := id
  organizationId := "org"
  status := .completed
  createdAt := createdAt
  completedAt := some 5
  depth := 0
  parentExecutionId := none
  parentStepExecutionId := none
  rootExecutionId := none
  retryOfExecutionId := replayOf
  replayOfExecutionId := replayOf
  inputJson := .obj []
  contextJson := .obj []
  outputJson := none
  errorJson := none

/-- An execution, its replay, and a replay of that. -/
def replayChain : Database where
  executions := ⟨[endedExecution "first" 0 none, endedExecution "second" 1 (some "first"),
    endedExecution "third" 2 (some "second")], by decide⟩
  steps := .empty
  reuses := .empty

def pastOptions : RetentionOptions := ⟨"org", some 10, some 10, 25, true⟩

lemma rootCandidates_replayChain : rootCandidates pastOptions replayChain =
    [endedExecution "first" 0 none, endedExecution "second" 1 (some "first"),
      endedExecution "third" 2 (some "second")] := by
  rfl

/-- The second execution is deleted with its replay. -/
theorem deleteTree_isOk_iff_of_replay :
    endedExecution "second" 1 (some "first") ∈ rootCandidates pastOptions replayChain ∧
      treeIds "org" "second" replayChain = ["second", "third"] ∧
      ∃ db', deleteTree "org" "second" replayChain = .ok db' ∧
        ∀ row ∈ replayChain.executions.rows, ¬ db'.has row.id → row.endedBefore (some 10) = true := by
  have hroot : endedExecution "second" 1 (some "first") ∈ rootCandidates pastOptions replayChain := by
    simp [rootCandidates_replayChain]
  exact ⟨hroot, by decide, (deleteTree_isOk_iff hroot).mpr (by decide)⟩

/-- The first execution is a candidate, as its replay has ended, but the replay cannot be deleted
while there is a replay of it. -/
theorem replay_of_replay_not_deleted : validate 20 pastOptions = .ok () ∧ replayChain.References ∧
    endedExecution "first" 0 none ∈ rootCandidates pastOptions replayChain ∧
      deleteTree "org" "first" replayChain = .error .foreignKeyViolation := by
  refine ⟨by decide +kernel, ?_, by simp [rootCandidates_replayChain], rfl⟩
  constructor <;> decide

/-! ## What a pass leaves -/

section Pass

/-- Links that are set to null are no new ones. -/
lemma isRelated_of_setNull {goneStep : String → Bool} {rootId : String}
    (h : (row.setNull gone goneStep).isRelated rootId = true) : row.isRelated rootId = true := by
  simp only [Execution.isRelated, Execution.setNull, Bool.or_eq_true, decide_eq_true_eq,
    Option.filter_eq_some_iff] at h ⊢
  rcases h with (h | h) | h
  · exact .inl (.inl h.1)
  · exact .inl (.inr h.1)
  · exact .inr (of_decide_eq_true h)

/-- The executions that are deleted with some roots: the tree of each root as the trees before leave
it, up to the first one that cannot be deleted. -/
def deletedIds (organizationId : String) : List String → Database → List String
  | [], _ => []
  | rootId :: rootIds, db =>
    if Deletable organizationId rootId db then
      treeIds organizationId rootId db ++ deletedIds organizationId rootIds
        (db.purge organizationId fun id => decide (id ∈ treeIds organizationId rootId db))
    else []

/-- The pass deletes these. -/
lemma snd_deleteTrees (organizationId : String) (rootIds : List String) (db : Database) :
    (deleteTrees organizationId rootIds db).2 =
      db.purge organizationId fun id => decide (id ∈ deletedIds organizationId rootIds db) := by
  induction rootIds generalizing db with
  | nil => exact (Database.purge_of_forall (by simp [deletedIds])).symm
  | cons rootId rootIds ih =>
    rw [deleteTrees, deletedIds]
    cases hdelete : deleteTree organizationId rootId db with
    | error error =>
      have hnot : ¬ Deletable organizationId rootId db := by
        rw [← exists_deleteTree_eq_ok_iff, hdelete]
        exact nofun
      rw [if_neg hnot]
      exact (Database.purge_of_forall (by simp)).symm
    | ok db' =>
      rw [if_pos (exists_deleteTree_eq_ok_iff.mp ⟨db', hdelete⟩), eq_purge_of_deleteTree hdelete]
      simp only [ih, Database.purge_purge, List.mem_append, Bool.decide_or]

/-- Each of them is from the tree of a root. -/
lemma exists_of_mem_deletedIds {rootIds : List String} {id : String}
    (h : id ∈ deletedIds organizationId rootIds db) :
    ∃ rootId ∈ rootIds, ∃ row ∈ db.executions.rows, row.id = id ∧
      row.organizationId = organizationId ∧ (row.id = rootId ∨ row.isRelated rootId = true) := by
  induction rootIds generalizing db with
  | nil => cases h
  | cons rootId rootIds ih =>
    rw [deletedIds] at h
    split_ifs at h
    · rcases List.mem_append.mp h with htree | hlater
      · exact ⟨rootId, by simp, exists_of_mem_treeIds htree⟩
      · obtain ⟨rootId', hrootId, row, hrow, rfl, horganization, hlink⟩ := ih hlater
        refine ⟨rootId', by simp [hrootId], ?_⟩
        -- The row was there before the first tree was deleted, perhaps with more links.
        change row ∈ (db.without _).executions.rows at hrow
        rw [Database.rows_executions_without, List.mem_map] at hrow
        obtain ⟨row, hrow, rfl⟩ := hrow
        exact ⟨row, (List.mem_filter.mp hrow).1, rfl, horganization,
          hlink.imp_right isRelated_of_setNull⟩
    · cases h

lemma references_deleteTrees {rootIds : List String} (hdb : db.References) :
    (deleteTrees organizationId rootIds db).2.References := by
  induction rootIds generalizing db with
  | nil => exact hdb
  | cons rootId rootIds ih =>
    rw [deleteTrees]
    cases hdelete : deleteTree organizationId rootId db with
    | error error => exact hdb
    | ok db' => exact ih (references_deleteTree hdb hdelete)

lemma mem_executions_clearPayloads :
    row ∈ (clearPayloads options ids db).executions.rows ↔
      ∃ row' ∈ db.executions.rows,
        row = if isCleared options ids row' = true then row'.clear else row' := by
  simp only [clearPayloads, Table.updateMany, List.mem_map, eq_comm]

lemma mem_steps_clearPayloads {step : StepExecution}
    (h : step ∈ (clearPayloads options ids db).steps.rows) :
    ∃ step' ∈ db.steps.rows, step'.id = step.id ∧ step'.executionId = step.executionId ∧
      (step'.executionId ∉ ids → step = step') := by
  obtain ⟨step', hstep', rfl⟩ := List.mem_map.mp h
  refine ⟨step', hstep', ?_⟩
  split_ifs with hcleared
  · rw [Bool.and_eq_true, decide_eq_true_eq, decide_eq_true_eq] at hcleared
    exact ⟨rfl, rfl, fun hnot => absurd hcleared.2 hnot⟩
  · exact ⟨rfl, rfl, fun _ => rfl⟩

/-! What is deleted does not depend on payloads. -/

section Cleared

variable {rootId : String}

lemma treeIds_clearPayloads :
    treeIds organizationId rootId (clearPayloads options ids db) =
      treeIds organizationId rootId db := by
  have hsame : ∀ row : Execution, ∀ cleared : Bool,
      (if cleared = true then row.clear else row).id = row.id ∧
      (if cleared = true then row.clear else row).organizationId = row.organizationId ∧
      (if cleared = true then row.clear else row).isRelated rootId = row.isRelated rootId ∧
      (if cleared = true then row.clear else row).depth = row.depth := by
    intro row cleared
    cases cleared <;> exact ⟨rfl, rfl, rfl, rfl⟩
  simp only [treeIds, tree, clearPayloads, Table.updateMany, List.filter_map]
  rw [← List.map_insertionSort (fun row other : Execution => other.depth ≤ row.depth)]
  · simp only [List.map_map, Function.comp_def, hsame]
  · intro row _ other _
    simp only [hsame]

lemma isStepOf_clearPayloads {id : String} :
    (clearPayloads options ids db).isStepOf gone id = db.isStepOf gone id := by
  simp only [Database.isStepOf, clearPayloads, Table.updateMany, List.any_map]
  refine List.any_congr rfl fun step => ?_
  simp only [Function.comp_apply]
  split <;> rfl

lemma deletable_clearPayloads :
    Deletable organizationId rootId (clearPayloads options ids db) ↔
      Deletable organizationId rootId db := by
  have hdraws : ∀ reuse id, (clearPayloads options ids db).draws reuse id = db.draws reuse id := by
    intro reuse id
    simp only [Database.draws, isStepOf_clearPayloads]
  simp only [Deletable, treeIds_clearPayloads, hdraws]
  refine and_congr_left fun _ => ?_
  simp only [clearPayloads, Table.updateMany, List.forall_mem_map]
  refine forall₂_congr fun row _ => ?_
  split <;> rfl

lemma purge_clearPayloads : (clearPayloads options ids db).purge organizationId gone =
    clearPayloads options ids (db.purge organizationId gone) := by
  have hstep : (clearPayloads options ids db).isStepOf gone = db.isStepOf gone :=
    funext fun _ => isStepOf_clearPayloads
  ext1
  · change ((clearPayloads options ids db).without gone).executions.rows =
      ((db.without gone).executions.updateMany _ _).rows
    rw [Database.rows_executions_without, hstep]
    simp only [Database.rows_executions_without, clearPayloads, Table.updateMany, List.filter_map,
      List.map_map]
    have hrows : (fun row : Execution => !gone row.id) ∘ (fun row =>
        if isCleared options ids row = true then row.clear else row) = fun row => !gone row.id := by
      funext row
      simp only [Function.comp_apply]
      split <;> rfl
    rw [hrows]
    refine List.map_congr_left fun row _ => ?_
    have hcleared : isCleared options ids (row.setNull gone (db.isStepOf gone)) =
      isCleared options ids row := rfl
    simp only [Function.comp_apply, hcleared]
    split <;> rfl
  · change ((clearPayloads options ids db).steps.rows.filter fun step => !gone step.executionId) =
      ((db.without gone).steps.updateMany _ _).rows
    simp only [clearPayloads, Table.updateMany, List.filter_map, Database.rows_steps_without]
    refine congrArg _ (List.filter_congr fun step _ => ?_)
    simp only [Function.comp_apply]
    split <;> rfl
  · rfl

lemma deletedIds_clearPayloads (rootIds : List String) :
    deletedIds organizationId rootIds (clearPayloads options ids db) =
      deletedIds organizationId rootIds db := by
  induction rootIds generalizing db with
  | nil => rfl
  | cons rootId rootIds ih =>
    simp only [deletedIds, deletable_clearPayloads, treeIds_clearPayloads, purge_clearPayloads, ih]

end Cleared

lemma has_clearPayloads {id : String} : (clearPayloads options ids db).has id ↔ db.has id := by
  simp only [Database.has, mem_executions_clearPayloads]
  constructor
  · rintro ⟨_, ⟨row, hrow, rfl⟩, rfl⟩
    refine ⟨row, hrow, ?_⟩
    split <;> rfl
  · rintro ⟨row, hrow, rfl⟩
    refine ⟨_, ⟨row, hrow, rfl⟩, ?_⟩
    split <;> rfl

lemma references_clearPayloads (hdb : db.References) : (clearPayloads options ids db).References := by
  have hstep : ∀ id, db.hasStep id → (clearPayloads options ids db).hasStep id := by
    rintro _ ⟨step, hstep, rfl⟩
    refine ⟨_, List.mem_map_of_mem hstep, ?_⟩
    split <;> rfl
  constructor
  · intro row hrow id hid
    obtain ⟨row', hrow', rfl⟩ := mem_executions_clearPayloads.mp hrow
    refine has_clearPayloads.mpr (hdb.links row' hrow' id ?_)
    split at hid <;> exact hid
  · intro row hrow id hid
    obtain ⟨row', hrow', rfl⟩ := mem_executions_clearPayloads.mp hrow
    refine hstep id (hdb.parentStep row' hrow' id ?_)
    split at hid <;> exact hid
  · intro step hmem
    obtain ⟨step', hstep', -, hexecution, -⟩ := mem_steps_clearPayloads hmem
    exact has_clearPayloads.mpr (hexecution ▸ hdb.execution step' hstep')
  · exact fun reuse hmem => has_clearPayloads.mpr (hdb.recovery reuse hmem)
  · exact fun reuse hmem => has_clearPayloads.mpr (hdb.source reuse hmem)
  · exact fun reuse hmem => hstep _ (hdb.sourceStep reuse hmem)

lemma clearPayloads_nil : clearPayloads options [] db = db := by
  ext1 <;> simp [clearPayloads, Table.updateMany, isCleared]

variable {now : ℕ} {columnSize : Json → ℕ}

/-- The rows after an executing pass. -/
lemma run_snd (hvalid : validate now options = .ok ()) (hexecute : options.execute = true) :
    (run now columnSize options db).2 =
      (deleteTrees options.organizationId ((rootCandidates options db).map (·.id))
        (clearPayloads options ((payloadCandidates options db).map (·.id)) db)).2 := by
  have hcleared : (if ((payloadCandidates options db).map (·.id)).isEmpty = true then db
      else clearPayloads options ((payloadCandidates options db).map (·.id)) db) =
      clearPayloads options ((payloadCandidates options db).map (·.id)) db := by
    split_ifs with hempty
    · rw [List.isEmpty_iff.mp hempty, clearPayloads_nil]
    · rfl
  simp only [run, hvalid, hexecute, Bool.true_eq_false, if_false, hcleared]
  split <;> rename_i heq <;> rw [heq]

/-- **The foreign keys hold after a pass**, whatever the options and whether it is completed or not.
-/
theorem references_run (hdb : db.References) : (run now columnSize options db).2.References := by
  cases hvalid : validate now options with
  | error message => simpa only [run, hvalid] using hdb
  | ok _ =>
    cases hexecute : options.execute with
    | false => simpa only [run, hvalid, hexecute, if_true] using hdb
    | true =>
      rw [run_snd hvalid hexecute]
      exact references_deleteTrees (references_clearPayloads hdb)

/-- The executions that have not ended, their steps and the reuse rows they depend on are as before.
-/
def Untouched (db db' : Database) : Prop :=
  ∀ row ∈ db.executions.rows, row.status.isActive = true →
    db'.executions.get? row.id = some row ∧
      (∀ step ∈ db.steps.rows, step.executionId = row.id → db'.steps.get? step.id = some step) ∧
      ∀ reuse ∈ db.reuses.rows, reuse.recoveryExecutionId = row.id →
        db'.reuses.get? reuse.id = some reuse

/-- The execution refers to another one: by a link, by its parent step or by a reuse row. -/
def Database.DependsOn (db : Database) (row : Execution) (id : String) : Prop :=
  id ∈ row.links ∨
    (∃ step ∈ db.steps.rows, row.parentStepExecutionId = some step.id ∧ step.executionId = id) ∨
    ∃ reuse ∈ db.reuses.rows, reuse.recoveryExecutionId = row.id ∧ reuse.sourceExecutionId = id

/-- A row after a pass comes from the one with its id. -/
lemma mem_executions_purge_clearPayloads {row' : Execution} (hrow : row ∈ db.executions.rows)
    (h : row' ∈ ((clearPayloads options ids db).purge organizationId gone).executions.rows)
    (hid : row'.id = row.id) :
    row' = Execution.setNull gone ((clearPayloads options ids db).isStepOf gone)
      (if isCleared options ids row = true then row.clear else row) := by
  change row' ∈ ((clearPayloads options ids db).without gone).executions.rows at h
  rw [Database.rows_executions_without, List.mem_map] at h
  obtain ⟨row₁, hrow₁, rfl⟩ := h
  obtain ⟨row₀, hrow₀, rfl⟩ := mem_executions_clearPayloads.mp (List.mem_filter.mp hrow₁).1
  have hid' : row₀.id = row.id := by
    rw [← hid]
    split <;> rfl
  rw [List.inj_on_of_nodup_map db.executions.nodup hrow₀ hrow hid']

/-- What refers to an execution that is there has its link left alone. -/
lemma setNull_eq_self {goneStep : String → Bool} (hlinks : ∀ id ∈ row.links, gone id = false)
    (hstep : ∀ id, row.parentStepExecutionId = some id → goneStep id = false) :
    row.setNull gone goneStep = row := by
  have hkeep : ∀ {gone : String → Bool} {link : Option String},
      (∀ id, link = some id → gone id = false) → (link.filter fun id => !gone id) = link := by
    intro gone link hlink
    cases link with
    | none => rfl
    | some id => simp [hlink id rfl]
  simp only [Execution.links, List.mem_append, Option.mem_toList] at hlinks
  simp only [Execution.setNull, hkeep hstep,
    hkeep (fun id h => hlinks id (.inl (.inl (.inl h)))),
    hkeep (fun id h => hlinks id (.inl (.inl (.inr h)))), hkeep (fun id h => hlinks id (.inl (.inr h)))]

/-- No execution that has not ended is deleted. -/
lemma not_mem_deletedIds_of_isActive (hrow : row ∈ db.executions.rows)
    (hactive : row.status.isActive = true) :
    row.id ∉ deletedIds options.organizationId ((rootCandidates options db).map (·.id)) db := by
  intro hdeleted
  obtain ⟨rootId, hroot, row', hrow', hid, hlink⟩ := exists_of_mem_deletedIds hdeleted
  obtain ⟨root, hcandidate, rfl⟩ := List.mem_map.mp hroot
  rw [List.inj_on_of_nodup_map db.executions.nodup hrow' hrow hid] at hlink
  have hended := endedBefore_of_mem_tree hcandidate (mem_tree.mpr ⟨hrow, hlink⟩)
  simp [Execution.endedBefore, hactive] at hended

/-- A payload that is cleared is not what it was. -/
lemma isActive_eq_false_of_untouched
    (h : Untouched db ((clearPayloads options ((payloadCandidates options db).map (·.id)) db).purge
      options.organizationId gone))
    (hrow : row ∈ payloadCandidates options db) : row.status.isActive = false := by
  by_contra hactive
  obtain ⟨hmem, horganization, hbefore, htombstone⟩ := mem_of_mem_payloadCandidates hrow
  have hsame := (h row hmem (by simpa using hactive)).1
  have hcleared : isCleared options ((payloadCandidates options db).map (·.id)) row = true := by
    simp only [isCleared, List.mem_map_of_mem hrow, horganization, hbefore, decide_true,
      Bool.and_self]
  have hfinal := mem_executions_purge_clearPayloads hmem (Table.get?_eq_some_iff.mp hsame).1 rfl
  rw [if_pos hcleared] at hfinal
  rw [hfinal] at htombstone
  simp [Execution.setNull, Execution.clear, tombstone, isTombstone] at htombstone

/-- What an execution that is as before refers to is still there. -/
lemma has_of_untouched
    (hreferences : ((clearPayloads options ids db).purge options.organizationId gone).References)
    (h : Untouched db ((clearPayloads options ids db).purge options.organizationId gone))
    (hrow : row ∈ db.executions.rows) (hactive : row.status.isActive = true) {id : String}
    (hdepends : db.DependsOn row id) :
    ((clearPayloads options ids db).purge options.organizationId gone).has id := by
  obtain ⟨hsame, -, hreuses⟩ := h row hrow hactive
  have hrow' := (Table.get?_eq_some_iff.mp hsame).1
  rcases hdepends with hlink | ⟨step, hstep, hparent, rfl⟩ | ⟨reuse, hreuse, hrecovery, rfl⟩
  · exact hreferences.links row hrow' id hlink
  · -- The parent step is still there, so its execution is.
    obtain ⟨step', hstep', hid⟩ := hreferences.parentStep row hrow' step.id (by simp [hparent])
    have hexecution := hreferences.execution step' hstep'
    obtain ⟨step₀, hstep₀, hid₀, hexecution₀, -⟩ :=
      mem_steps_clearPayloads (List.mem_filter.mp hstep').1
    rwa [← hexecution₀,
      List.inj_on_of_nodup_map db.steps.nodup hstep₀ hstep (hid₀.trans hid)] at hexecution
  · exact hreferences.source reuse (Table.get?_eq_some_iff.mp (hreuses reuse hreuse hrecovery)).1

/-- An execution is as before if it is neither deleted nor cleared, and what it refers to is left.
-/
lemma get?_executions_purge_clearPayloads (hrow : row ∈ db.executions.rows) (hleft : gone row.id = false)
    (hnot : row.id ∉ ids) (hkept : ∀ id, db.DependsOn row id → gone id = false) :
    ((clearPayloads options ids db).purge options.organizationId gone).executions.get? row.id =
      some row := by
  refine Table.get?_eq_some_iff.mpr ⟨?_, rfl⟩
  change row ∈ ((clearPayloads options ids db).without gone).executions.rows
  rw [Database.rows_executions_without, List.mem_map]
  refine ⟨row, List.mem_filter.mpr ⟨?_, by simp [hleft]⟩, ?_⟩
  · exact mem_executions_clearPayloads.mpr ⟨row, hrow, by simp [isCleared, hnot]⟩
  · refine setNull_eq_self (fun id hid => hkept id (.inl hid)) fun id hid => ?_
    by_contra hdeleted
    obtain ⟨step, hstep, rfl, hgone⟩ := Database.isStepOf_eq_true.mp (by simpa using hdeleted)
    obtain ⟨step₀, hstep₀, hid₀, hexecution₀, -⟩ := mem_steps_clearPayloads hstep
    have hkept₀ := hkept step₀.executionId (.inr (.inl ⟨step₀, hstep₀, by rw [hid₀, hid], rfl⟩))
    rw [hexecution₀, hgone] at hkept₀
    cases hkept₀

/-- **When a pass leaves the executions that have not ended alone**: exactly if none of them is a
candidate for clearing payloads, and none refers to an execution of a tree that is deleted. -/
theorem run_untouched_iff (hdb : db.References) (hvalid : validate now options = .ok ())
    (hexecute : options.execute = true) :
    Untouched db (run now columnSize options db).2 ↔
      (∀ row ∈ payloadCandidates options db, row.status.isActive = false) ∧
      ∀ row ∈ db.executions.rows, row.status.isActive = true → ∀ id, db.DependsOn row id →
        id ∉ deletedIds options.organizationId ((rootCandidates options db).map (·.id)) db := by
  have hreferences : (run now columnSize options db).2.References := references_run hdb
  rw [run_snd hvalid hexecute, snd_deleteTrees, deletedIds_clearPayloads] at hreferences ⊢
  constructor
  · intro h
    refine ⟨fun row hrow => isActive_eq_false_of_untouched h hrow, fun row hrow hactive id hdepends => ?_⟩
    have hhas := has_of_untouched hreferences h hrow hactive hdepends
    exact of_decide_eq_false (Database.has_purge.mp hhas).2
  · rintro ⟨hpayload, hdepends⟩ row hrow hactive
    have hleft := decide_eq_false (@not_mem_deletedIds_of_isActive _ options _ hrow hactive)
    have hnot : row.id ∉ (payloadCandidates options db).map (·.id) := by
      intro hmem
      obtain ⟨candidate, hcandidate, hid⟩ := List.mem_map.mp hmem
      have heq := List.inj_on_of_nodup_map db.executions.nodup
        (mem_of_mem_payloadCandidates hcandidate).1 hrow hid
      rw [heq] at hcandidate
      simp [hpayload row hcandidate] at hactive
    have hkept := fun id hid => decide_eq_false (hdepends row hrow hactive id hid)
    refine ⟨get?_executions_purge_clearPayloads hrow hleft hnot hkept, fun step hstep hexecution => ?_,
      fun reuse hreuse hrecovery => ?_⟩
    · refine Table.get?_eq_some_iff.mpr ⟨List.mem_filter.mpr ⟨?_, by simpa [hexecution] using hleft⟩, rfl⟩
      exact List.mem_map.mpr ⟨step, hstep, by simp [hexecution, hnot]⟩
    · refine Table.get?_eq_some_iff.mpr ⟨?_, rfl⟩
      rw [Database.rows_reuses_purge, List.mem_filter]
      have hsource := hkept reuse.sourceExecutionId (.inr (.inr ⟨reuse, hreuse, hrecovery, rfl⟩))
      exact ⟨hreuse, by simp [hrecovery, hleft, hsource]⟩

end Pass

/-- A step that has ended. -/
def endedStep (id executionId : String) : StepExecution :=
  ⟨id, "org", executionId, .obj [], none, none, none⟩

/-- An execution that has ended, another one that is replayed, and the replay, which goes on with a step
of it. -/
def replayed : Database where
  executions := ⟨[endedExecution "first" 0 none, endedExecution "second" 1 none,
    { endedExecution "replay" 15 (some "second") with status := .running, completedAt := none }],
    by decide⟩
  steps := ⟨[endedStep "step" "second", endedStep "taken" "replay"], by decide⟩
  reuses := ⟨[⟨"reuse", "org", "replay", "second", "step"⟩], by decide⟩

/-- The first execution is deleted, and the replay keeps what it depends on. -/
theorem run_untouched_iff_of_replay :
    deletedIds "org" ((rootCandidates pastOptions replayed).map (·.id)) replayed = ["first"] ∧
      (replayed.executions.get? "replay").any (·.status.isActive) = true ∧
      Untouched replayed (run 20 (fun _ => 0) pastOptions replayed).2 := by
  have hdeleted : deletedIds "org" ((rootCandidates pastOptions replayed).map (·.id)) replayed =
      ["first"] := by decide
  refine ⟨hdeleted, rfl, (run_untouched_iff ?_ (by decide +kernel) rfl).mpr ⟨by decide, ?_⟩⟩
  · constructor <;> decide
  · have hleft : ∀ row ∈ replayed.executions.rows, row.status.isActive = true →
        "first" ∉ row.links ∧ (∀ step ∈ replayed.steps.rows, step.executionId ≠ "first") ∧
          ∀ reuse ∈ replayed.reuses.rows, reuse.sourceExecutionId ≠ "first" := by decide
    intro row hrow hactive id hdepends
    change id ∉ deletedIds "org" _ replayed
    rw [hdeleted, List.mem_singleton]
    rintro rfl
    obtain ⟨hlinks, hsteps, hreuses⟩ := hleft row hrow hactive
    rcases hdepends with hlink | ⟨step, hstep, -, hid⟩ | ⟨reuse, hreuse, -, hid⟩
    · exact hlinks hlink
    · exact hsteps step hstep hid
    · exact hreuses reuse hreuse hid

/-- An execution that waits, for example for an approval. -/
def waitingExecution : Execution :=
  { endedExecution "run" 0 none with status := .retrying, completedAt := none }

def waitingDatabase : Database := ⟨⟨[waitingExecution], by decide⟩, .empty, .empty⟩

/-- The input and the context of an execution that waits are cleared. -/
theorem run_clears_waiting : validate 20 pastOptions = .ok () ∧ pastOptions.execute = true ∧
    waitingDatabase.References ∧
      ¬ Untouched waitingDatabase (run 20 (fun _ => 0) pastOptions waitingDatabase).2 := by
  refine ⟨by decide +kernel, rfl, ?_, fun h => ?_⟩
  · constructor <;> decide
  · have hsame := (h waitingExecution (by simp [waitingDatabase]) rfl).1
    have hcleared : (run 20 (fun _ => 0) pastOptions waitingDatabase).2.executions.get? "run" =
        some waitingExecution.clear := by
      rw [run_snd (by decide +kernel) rfl]
      rfl
    cases hsame.symm.trans hcleared

end Flowmind.Retention
