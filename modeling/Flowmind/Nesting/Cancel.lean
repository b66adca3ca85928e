import Flowmind.Nesting.Forest
import Flowmind.System.World

/-!
# Cancelling an execution

An execution that is cancelled takes its subtree with it: the children it has started, their
children and so on.  The API finds them by the root they have in common, not by the links to their
parents.

* `ExecutionsService.cancel` — the request, with its writes one after the other.
* `CancelsSubtree` — what it is for.
* `cancel_exact_iff` — this is what it does if and only if nothing else in the tree is there to be
  cancelled; it is not if the execution has a sibling that is active (`cancel_hits_sibling`).
-/

namespace Flowmind

open Nesting Store Database

/-! ## The request -/

/-- Why a request is refused. -/
inductive CancelError where
  | notFound
  | alreadyTerminal (status : ExecutionStatus)
deriving DecidableEq, Repr

namespace Database

/-- A write that cannot fail. -/
def apply (p : Platform) (clock : ℕ) (db : Database) (write : ApiWrite) : Database :=
  (write.perform p clock db).getD db

/-- The rows that `ApiWrite.cancel` changes. -/
def cancellable (organizationId executionId : String) (row : ExecutionRow) : Bool :=
  decide (row.id = executionId) && decide (row.organizationId = organizationId) && row.status.isActive

/-- The execution of an approval is the one that is cancelled, or has the same root. -/
def inTree (db : Database) (organizationId executionId rootId : String) (approval : ApprovalRow) :
    Bool :=
  (db.executions.get? approval.executionId).any fun row =>
    decide (row.organizationId = organizationId) &&
      (decide (row.id = executionId) || decide (row.rootExecutionId = some rootId))

/-- The pending approvals of a tree. -/
def pendingApprovals (db : Database) (organizationId executionId rootId : String) :
    List ApprovalRow :=
  db.approvals.rows.filter fun approval =>
    decide (approval.status = .pending) && db.inTree organizationId executionId rootId approval

/-- Approvals are cancelled one by one. -/
def cancelApprovals (p : Platform) (clock : ℕ) (db : Database) (approvals : List ApprovalRow) :
    Database :=
  approvals.foldl (fun db approval => db.apply p clock (.cancelApproval approval.stepExecutionId)) db

end Database

/-- The request to cancel an execution. -/
def ExecutionsService.cancel (p : Platform) (clock : ℕ) (db : Database)
    (organizationId executionId : String) : Except CancelError Database :=
  match (db.executions.get? executionId).filter fun row =>
      decide (row.organizationId = organizationId) && decide (row.executionMode = .real) with
  | none => .error .notFound
  | some execution =>
    if !execution.status.isActive then .error (.alreadyTerminal execution.status)
    else
      let count := db.executions.count (Database.cancellable organizationId executionId)
      let db := db.apply p clock (.cancel executionId organizationId)
      match db.executions.get? executionId with
      | none => .error .notFound
      | some updated =>
        if count ≠ 1 then .ok db
        else
          let rootId := updated.rootExecutionId.getD updated.id
          let db := db.apply p clock (.cancelDescendants rootId organizationId)
          .ok (db.cancelApprovals p clock
            (db.pendingApprovals organizationId executionId rootId))

variable {p : Platform} {clock : ℕ} {db : Database}

section Writes

variable {id : StepId}

@[simp] lemma Database.executions_cancelApprovals (approvals : List ApprovalRow) :
    (db.cancelApprovals p clock approvals).executions = db.executions := by
  induction approvals generalizing db with
  | nil => rfl
  | cons approval approvals ih => exact ih

lemma Database.get?_apply_cancelApproval (stepExecutionId : StepId) :
    (db.apply p clock (.cancelApproval stepExecutionId)).approvals.get? id =
      (db.approvals.get? id).map fun row =>
        if row.stepExecutionId = stepExecutionId ∧ row.status = .pending then
          { row with status := .cancelled } else row := by
  simp only [apply, ApiWrite.perform, Option.getD_some, Table.get?_updateMany, Bool.and_eq_true,
    decide_eq_true_eq]

lemma Database.get?_cancelApprovals (approvals : List ApprovalRow) :
    (db.cancelApprovals p clock approvals).approvals.get? id =
      (db.approvals.get? id).map fun row =>
        if (∃ approval ∈ approvals, approval.stepExecutionId = row.stepExecutionId) ∧
            row.status = .pending then { row with status := .cancelled } else row := by
  induction approvals generalizing db with
  | nil => simp [cancelApprovals]
  | cons approval approvals ih =>
    have hcons : db.cancelApprovals p clock (approval :: approvals) =
        (db.apply p clock (.cancelApproval approval.stepExecutionId)).cancelApprovals p clock
          approvals := rfl
    rw [hcons, ih, get?_apply_cancelApproval, Option.map_map]
    congr 1
    funext row
    by_cases hpending : row.status = .pending
    · by_cases hstep : row.stepExecutionId = approval.stepExecutionId
      · simp [hpending, hstep]
      · simp [hstep, Ne.symm hstep]
    · simp [hpending]

end Writes

/-! ## Forests of executions -/

namespace Database

/-- The parent of an execution. -/
def parentOf (db : Database) (id : String) : Option String :=
  (db.executions.get? id).bind (·.parentExecutionId)

/-- The root an execution names. -/
def rootOf (db : Database) (id : String) : Option String :=
  (db.executions.get? id).bind (·.rootExecutionId)

/-- The execution or one of its descendants. -/
def InSubtree (db : Database) (top id : String) : Prop := id = top ∨ Descends db.parentOf id top

/-- The executions form trees, each in one organization, and name their roots. -/
structure IsForest (db : Database) : Prop where
  wellFounded : WellFounded fun parent id => db.parentOf id = some parent
  rooted : Rooted db.parentOf db.rootOf
  organization : ∀ {id parent row}, db.executions.get? id = some row → db.parentOf id = some parent →
    ∃ parentRow, db.executions.get? parent = some parentRow ∧
      parentRow.organizationId = row.organizationId

variable {id top : String} {row : ExecutionRow}

/-- An ancestor exists. -/
lemma IsForest.exists_of_descends (h : db.IsForest) (hrow : db.executions.get? id = some row)
    (hdescends : Descends db.parentOf id top) : ∃ topRow, db.executions.get? top = some topRow := by
  induction hdescends with
  | single hlink => exact (h.organization hrow hlink).imp fun _ h => h.1
  | tail _ hlink ih =>
    obtain ⟨middleRow, hmiddle⟩ := ih
    exact (h.organization hmiddle hlink).imp fun _ h => h.1

/-- A tree is in one organization. -/
lemma IsForest.organization_eq (h : db.IsForest) {topRow : ExecutionRow}
    (hdescends : Descends db.parentOf id top) (hrow : db.executions.get? id = some row)
    (htop : db.executions.get? top = some topRow) : topRow.organizationId = row.organizationId := by
  induction hdescends generalizing topRow with
  | single hlink =>
    obtain ⟨parentRow, hparent, heq⟩ := h.organization hrow hlink
    rw [← heq, Option.some.inj (htop.symm.trans hparent)]
  | tail hrest hlink ih =>
    obtain ⟨middleRow, hmiddle⟩ := h.exists_of_descends hrow hrest
    obtain ⟨parentRow, hparent, heq⟩ := h.organization hmiddle hlink
    rw [← ih hmiddle, ← heq, Option.some.inj (htop.symm.trans hparent)]

end Database

/-! ## What cancelling is for -/

/-- An execution that is to be cancelled waits for the approval. -/
def Awaited (top : String) (db : Database) (approval : ApprovalRow) : Prop :=
  approval.status = .pending ∧ ∃ row, db.executions.get? approval.executionId = some row ∧
    row.status.isActive = true ∧ db.InSubtree top approval.executionId

/-- The execution and what is active below it is cancelled, with the approvals that these executions
wait for; nothing else is changed. -/
structure CancelsSubtree (clock : ℕ) (top : String) (db db' : Database) : Prop where
  cancelled : ∀ {id row}, db.executions.get? id = some row → row.status.isActive = true →
    db.InSubtree top id → db'.executions.get? id = some (ApiWrite.cancelled clock row)
  unchanged : ∀ {id}, ¬ db.InSubtree top id → db'.executions.get? id = db.executions.get? id
  approvals_cancelled : ∀ {id approval}, db.approvals.get? id = some approval →
    Awaited top db approval → db'.approvals.get? id = some { approval with status := .cancelled }
  approvals_unchanged : ∀ {id approval}, db.approvals.get? id = some approval →
    ¬ Awaited top db approval → db'.approvals.get? id = some approval

/-- Nothing else in the tree is there to be cancelled. -/
structure OnlySubtree (top : String) (db : Database) : Prop where
  executions : ∀ {id row}, db.executions.get? id = some row → row.status.isActive = true →
    db.rootOf id = some ((db.rootOf top).getD top) → db.InSubtree top id
  approvals : ∀ {id approval}, db.approvals.get? id = some approval → approval.status = .pending →
    approval.executionId = top ∨
      db.rootOf approval.executionId = some ((db.rootOf top).getD top) → Awaited top db approval

/-! ## The result -/

section Cancel

variable {organizationId top : String} {topRow : ExecutionRow}

/-- The row is cancelled. -/
def Swept (organizationId top rootId : String) (row : ExecutionRow) : Prop :=
  row.organizationId = organizationId ∧ (row.id = top ∨ row.rootExecutionId = some rootId)

instance {organizationId top rootId : String} {row : ExecutionRow} :
    Decidable (Swept organizationId top rootId row) :=
  inferInstanceAs (Decidable (_ ∧ _))

variable {rootId : String} {approval : ApprovalRow}

lemma Database.inTree_iff :
    db.inTree organizationId top rootId approval = true ↔
      ∃ row, db.executions.get? approval.executionId = some row ∧
        Swept organizationId top rootId row := by
  simp [inTree, Swept, Option.any_eq_true]

lemma Database.get?_apply_cancel (id : String) :
    (db.apply p clock (.cancel top organizationId)).executions.get? id =
      (db.executions.get? id).map fun row =>
        if cancellable organizationId top row then ApiWrite.cancelled clock row else row :=
  get?_updateExecutions

/-- Executions after both updates: the second one does not find what the first one has cancelled. -/
lemma Database.get?_apply_cancelDescendants (rootId id : String) :
    ((db.apply p clock (.cancel top organizationId)).apply p clock
        (.cancelDescendants rootId organizationId)).executions.get? id =
      (db.executions.get? id).map fun row =>
        if Swept organizationId top rootId row ∧ row.status.isActive = true then
          ApiWrite.cancelled clock row else row := by
  have hupdate : ∀ db : Database,
      (db.apply p clock (.cancelDescendants rootId organizationId)).executions.get? id =
        (db.executions.get? id).map fun row =>
          if decide (row.rootExecutionId = some rootId) &&
            decide (row.organizationId = organizationId) && row.status.isActive then
            ApiWrite.cancelled clock row else row := fun db => get?_updateExecutions
  rw [hupdate, get?_apply_cancel, Option.map_map]
  congr 1
  funext row
  have hterminal : (ApiWrite.cancelled clock row).status.isActive = false := rfl
  simp only [Swept, cancellable]
  by_cases hactive : row.status.isActive = true
  · by_cases horganization : row.organizationId = organizationId
    · by_cases hid : row.id = top
      · simp [hactive, horganization, hid, hterminal]
      · simp [horganization, hid]
    · simp [horganization]
  · simp [hactive]

/-- What is cancelled stays in its tree. -/
lemma Database.inTree_apply_cancelDescendants (rootId : String) (approval : ApprovalRow) :
    ((db.apply p clock (.cancel top organizationId)).apply p clock
        (.cancelDescendants rootId organizationId)).inTree organizationId top rootId approval =
      db.inTree organizationId top rootId approval := by
  rw [inTree, inTree, get?_apply_cancelDescendants]
  cases db.executions.get? approval.executionId with
  | none => rfl
  | some row =>
    simp only [Option.map_some]
    split <;> rfl

/-- The approval is among the pending ones of a tree. -/
lemma Database.exists_mem_pendingApprovals {id : StepId}
    (h : db.approvals.get? id = some approval) :
    (∃ other ∈ db.pendingApprovals organizationId top rootId,
        other.stepExecutionId = approval.stepExecutionId) ↔
      approval.status = .pending ∧ db.inTree organizationId top rootId approval = true := by
  have hrow := Table.get?_eq_some_iff.mp h
  constructor
  · rintro ⟨other, hmem, hkey⟩
    simp only [pendingApprovals, List.mem_filter, Bool.and_eq_true, decide_eq_true_eq] at hmem
    have hsame : other = approval :=
      Option.some.inj ((Table.get?_eq_some_iff.mpr ⟨hmem.1, hkey.trans hrow.2⟩).symm.trans h)
    exact hsame ▸ hmem.2
  · intro hpending
    refine ⟨approval, ?_, rfl⟩
    simp only [pendingApprovals, List.mem_filter, Bool.and_eq_true, decide_eq_true_eq]
    exact ⟨hrow.1, hpending⟩

/-- What the request does. -/
lemma ExecutionsService.cancel_eq (p : Platform) (clock : ℕ)
    (htop : db.executions.get? top = some topRow)
    (horganization : topRow.organizationId = organizationId) (hmode : topRow.executionMode = .real)
    (hactive : topRow.status.isActive = true) :
    ∃ db', ExecutionsService.cancel p clock db organizationId top = .ok db' ∧
      (∀ id, db'.executions.get? id = (db.executions.get? id).map fun row =>
        if Swept organizationId top ((db.rootOf top).getD top) row ∧ row.status.isActive = true then
          ApiWrite.cancelled clock row else row) ∧
      ∀ id approval, db.approvals.get? id = some approval → db'.approvals.get? id =
        some (if approval.status = .pending ∧
            db.inTree organizationId top ((db.rootOf top).getD top) approval = true then
          { approval with status := .cancelled } else approval) := by
  have hid : topRow.id = top := id_of_get? htop
  have hcount : db.executions.count (Database.cancellable organizationId top) = 1 := by
    refine (count_eq_one_iff fun row h => ?_).mpr ⟨topRow, htop, ?_⟩
    · simp only [Database.cancellable, Bool.and_eq_true, decide_eq_true_eq] at h
      exact h.1.1
    · simp [Database.cancellable, hid, horganization, hactive]
  have hupdated : (db.apply p clock (.cancel top organizationId)).executions.get? top =
      some (ApiWrite.cancelled clock topRow) := by
    rw [get?_apply_cancel, htop]
    simp [Database.cancellable, hid, horganization, hactive]
  have hroot : (ApiWrite.cancelled clock topRow).rootExecutionId.getD
      (ApiWrite.cancelled clock topRow).id = (db.rootOf top).getD top := by
    simp [ApiWrite.cancelled, Database.rootOf, htop, hid]
  refine ⟨_, by simp only [cancel, htop, Option.filter_some, horganization, hmode, decide_true,
    Bool.and_true, if_true, hactive, hcount, hupdated, hroot]; rfl, fun id => ?_, fun id approval h => ?_⟩
  · rw [executions_cancelApprovals]
    exact get?_apply_cancelDescendants _ id
  · have hkept : ((db.apply p clock (.cancel top organizationId)).apply p clock
        (.cancelDescendants ((db.rootOf top).getD top) organizationId)).approvals.get? id =
        some approval := h
    rw [get?_cancelApprovals, hkept]
    refine congrArg some (if_congr ?_ rfl rfl)
    rw [exists_mem_pendingApprovals hkept, inTree_apply_cancelDescendants]
    exact ⟨fun h => h.1, fun h => ⟨h, h.1⟩⟩

section

variable (hforest : db.IsForest) (htop : db.executions.get? top = some topRow)
  (horganization : topRow.organizationId = organizationId)
include hforest htop horganization

variable {id : String}

/-- What is in the subtree is swept. -/
lemma Database.IsForest.swept {row : ExecutionRow} (hrow : db.executions.get? id = some row)
    (hin : db.InSubtree top id) : Swept organizationId top ((db.rootOf top).getD top) row := by
  rcases hin with rfl | hdescends
  · cases htop.symm.trans hrow
    exact ⟨horganization, .inl (id_of_get? hrow)⟩
  · have hroot := hdescends.root_eq hforest.rooted
    rw [rootOf, hrow] at hroot
    exact ⟨(hforest.organization_eq hdescends hrow htop).symm.trans horganization, .inr hroot⟩

/-- What names the root of an execution is in its organization. -/
lemma Database.IsForest.swept_of_root (hroot : db.rootOf id = some ((db.rootOf top).getD top)) :
    ∃ row, db.executions.get? id = some row ∧
      Swept organizationId top ((db.rootOf top).getD top) row := by
  obtain ⟨row, hrow, hlabel⟩ := Option.bind_eq_some_iff.mp hroot
  refine ⟨row, hrow, ?_, .inr hlabel⟩
  obtain ⟨hdescends, -⟩ := hforest.rooted.descends hforest.wellFounded hroot
  obtain ⟨rootRow, hrootRow⟩ := hforest.exists_of_descends hrow hdescends
  rw [← hforest.organization_eq hdescends hrow hrootRow, ← horganization]
  cases htopRoot : db.rootOf top with
  | none =>
    rw [htopRoot, Option.getD_none, htop] at hrootRow
    rw [Option.some.inj hrootRow]
  | some rootId =>
    rw [htopRoot] at hrootRow
    exact hforest.organization_eq (hforest.rooted.descends hforest.wellFounded htopRoot).1 htop hrootRow

end

/-- **Cancelling cancels the subtree** if and only if nothing else in the tree is there to be
cancelled. -/
theorem cancel_exact_iff (hforest : db.IsForest) (htop : db.executions.get? top = some topRow)
    (horganization : topRow.organizationId = organizationId) (hmode : topRow.executionMode = .real)
    (hactive : topRow.status.isActive = true) :
    ∃ db', ExecutionsService.cancel p clock db organizationId top = .ok db' ∧
      (CancelsSubtree clock top db db' ↔ OnlySubtree top db) := by
  obtain ⟨db', hcancel, hexecutions, happrovals⟩ :=
    ExecutionsService.cancel_eq p clock htop horganization hmode hactive
  refine ⟨db', hcancel, fun h => ⟨?_, ?_⟩, fun h => ⟨?_, ?_, ?_, ?_⟩⟩
  · -- An execution that is swept away is not as before.
    intro id row hrow hrowActive hroot
    by_contra hout
    obtain ⟨_, hrow', hswept⟩ := hforest.swept_of_root htop horganization hroot
    cases hrow.symm.trans hrow'
    have hsame := (hexecutions id).symm.trans (h.unchanged hout)
    rw [hrow, Option.map_some, if_pos ⟨hswept, hrowActive⟩, Option.some.injEq] at hsame
    rw [← hsame] at hrowActive
    cases hrowActive
  · intro id approval happroval hpending hin
    by_contra hout
    have hswept : ∃ row, db.executions.get? approval.executionId = some row ∧
        Swept organizationId top ((db.rootOf top).getD top) row := by
      rcases hin with heq | hroot
      · exact ⟨topRow, heq ▸ htop, hforest.swept htop horganization htop (.inl rfl)⟩
      · exact hforest.swept_of_root htop horganization hroot
    have hsame := (happrovals id approval happroval).symm.trans (h.approvals_unchanged happroval hout)
    rw [if_pos ⟨hpending, inTree_iff.mpr hswept⟩, Option.some.injEq] at hsame
    rw [← hsame] at hpending
    cases hpending
  · intro id row hrow hrowActive hin
    rw [hexecutions, hrow, Option.map_some,
      if_pos ⟨hforest.swept htop horganization hrow hin, hrowActive⟩]
  · intro id hout
    rw [hexecutions]
    cases hrow : db.executions.get? id with
    | none => rfl
    | some row =>
      rw [Option.map_some, if_neg]
      rintro ⟨⟨-, hid | hlabel⟩, hrowActive⟩
      · exact hout (.inl ((id_of_get? hrow).symm.trans hid))
      · refine hout (h.executions hrow hrowActive ?_)
        rw [Database.rootOf, hrow, Option.bind_some, hlabel]
  · rintro id approval happroval ⟨hpending, row, hrow, -, hin⟩
    rw [happrovals id approval happroval, if_pos]
    exact ⟨hpending,
      inTree_iff.mpr ⟨row, hrow, hforest.swept htop horganization hrow hin⟩⟩
  · intro id approval happroval hout
    rw [happrovals id approval happroval, if_neg]
    rintro ⟨hpending, hin⟩
    obtain ⟨row, hrow, -, hswept⟩ := inTree_iff.mp hin
    refine hout (h.approvals happroval hpending ?_)
    rcases hswept with hid | hlabel
    · exact .inl ((id_of_get? hrow).symm.trans hid)
    · exact .inr (by rw [Database.rootOf, hrow, Option.bind_some, hlabel])

end Cancel

/-! ## Small families -/

/-- A child of the execution `"root"`. -/
def childOfRoot (id : String) : ExecutionRow :=
  { newExecution id "org" "callee" "version" .running 1 with
    parentExecutionId := some "root", rootExecutionId := some "root", depth := 1 }

/-- An execution with some children. -/
def familyOf (children : List String) (hnodup : ("root" :: children).Nodup) : Database where
  executions :=
    { rows := newExecution "root" "org" "caller" "version" .running 0 :: children.map childOfRoot
      nodup := by
        have hkeys : (children.map childOfRoot).map ExecutionRow.id = children := by
          rw [List.map_map]
          exact List.map_id _
        rw [List.map_cons, hkeys]
        exact hnodup }
  steps := .empty
  approvals := .empty

section Family

variable {children : List String} {hnodup : ("root" :: children).Nodup} {id : String}

lemma get?_familyOf : (familyOf children hnodup).executions.get? id =
    if id = "root" then some (newExecution "root" "org" "caller" "version" .running 0)
    else if id ∈ children then some (childOfRoot id) else none := by
  split_ifs with hroot hchild
  · exact Table.get?_eq_some_iff.mpr ⟨List.mem_cons_self, hroot.symm⟩
  · exact Table.get?_eq_some_iff.mpr ⟨List.mem_cons_of_mem _ (List.mem_map_of_mem hchild), rfl⟩
  · refine Table.get?_eq_none_iff.mpr fun row hrow => ?_
    rcases List.mem_cons.mp hrow with rfl | hrow
    · exact fun heq => hroot heq.symm
    · obtain ⟨child, hmem, rfl⟩ := List.mem_map.mp hrow
      exact fun heq => hchild (heq ▸ hmem)

lemma parentOf_familyOf : (familyOf children hnodup).parentOf id =
    if id ≠ "root" ∧ id ∈ children then some "root" else none := by
  rw [Database.parentOf, get?_familyOf]
  by_cases hroot : id = "root"
  · simp [hroot, newExecution]
  · by_cases hchild : id ∈ children <;> simp [hroot, hchild, childOfRoot]

lemma rootOf_familyOf :
    (familyOf children hnodup).rootOf id = (familyOf children hnodup).parentOf id := by
  rw [Database.rootOf, Database.parentOf, get?_familyOf]
  split_ifs <;> rfl

lemma isForest_familyOf : (familyOf children hnodup).IsForest where
  wellFounded := by
    refine Subrelation.wf (fun {parent id} h => ?_) (measure fun id => if id = "root" then 0 else 1).wf
    rw [parentOf_familyOf] at h
    split_ifs at h with hid
    cases h
    simp [WellFoundedRelation.rel, InvImage, hid.1]
  rooted :=
    { of_parent := by
        intro id parent h
        have hroot : parent = "root" := by
          rw [parentOf_familyOf] at h
          split_ifs at h
          exact (Option.some.inj h).symm
        rw [rootOf_familyOf, h, hroot]
        rfl
      of_none := fun h => rootOf_familyOf.trans h }
  organization := by
    intro id parent row hrow hparent
    rw [parentOf_familyOf] at hparent
    split_ifs at hparent with hid
    cases hparent
    refine ⟨_, by rw [get?_familyOf, if_pos rfl], ?_⟩
    rw [get?_familyOf, if_neg hid.1, if_pos hid.2] at hrow
    rw [← Option.some.inj hrow]
    rfl

/-- All links lead to the root. -/
lemma eq_root_of_descends {top : String} (h : Descends (familyOf children hnodup).parentOf id top) :
    top = "root" := by
  cases h with
  | single hlink | tail _ hlink =>
    rw [parentOf_familyOf] at hlink
    split_ifs at hlink
    exact (Option.some.inj hlink).symm

end Family

/-- The statuses of some executions after a request to cancel one of a family. -/
def statusesAfterCancel (top : String) (children : List String)
    (hnodup : ("root" :: children).Nodup) : List (Option ExecutionStatus) :=
  match ExecutionsService.cancel (trialPlatform (singleStep .delay)) 5 (familyOf children hnodup) "org"
      top with
  | .ok db => ("root" :: children).map fun id => (db.executions.get? id).map (·.status)
  | .error _ => []

/-- The execution `"root"` with one child. -/
def onlyChild : Database := familyOf ["only"] (by decide)

/-- The child is cancelled, and its parent is not. -/
theorem only_child_cancelled :
    ∃ db', ExecutionsService.cancel (trialPlatform (singleStep .delay)) 5 onlyChild "org" "only" =
      .ok db' ∧ CancelsSubtree 5 "only" onlyChild db' := by
  have htop : onlyChild.executions.get? "only" = some (childOfRoot "only") := get?_familyOf
  obtain ⟨db', hcancel, hiff⟩ := cancel_exact_iff isForest_familyOf htop rfl rfl rfl
  refine ⟨db', hcancel, hiff.mpr ⟨fun {id row} hrow _ hroot => ?_, fun happroval => ?_⟩⟩
  · rw [rootOf_familyOf, parentOf_familyOf] at hroot
    split_ifs at hroot with hid
    exact .inl (List.mem_singleton.mp hid.2)
  · cases happroval

/-- **An active sibling is cancelled as well**, though it is not below the execution. -/
theorem cancel_hits_sibling :
    (familyOf ["left", "right"] (by decide)).IsForest ∧
      ¬ (familyOf ["left", "right"] (by decide)).InSubtree "left" "right" ∧
      statusesAfterCancel "left" ["left", "right"] (by decide) =
        [some .running, some .cancelled, some .cancelled] := by
  refine ⟨isForest_familyOf, ?_, by decide +kernel⟩
  rintro (heq | hdescends)
  · exact absurd heq (by decide)
  · exact absurd (eq_root_of_descends hdescends) (by decide)

end Flowmind
