import Flowmind.Protocol.Shape

/-!
# When a run starts or cancels a child execution

A run starts a child only after it has looked at the newest child of the step, at its own execution
and at all ancestors of it.  It cancels the newest child only, and a step fails with the code
`TIMEOUT` only after that.  What a run has read is its **view**; `startProtocol` says what the view
and these statements have to do with each other, and every run keeps to it
(`meets_startProtocol_run`).

The rows in a view may be old when the child is started.
-/

namespace Flowmind

open Program Eng

/-! ## What a run has read -/

/-- The error is a timeout. -/
def StepError.isTimeout (error : StepError) : Bool := Decidable.decide (error.code = some "TIMEOUT")

/-- What a run has read of executions. -/
structure StartView where
  found : List ExecutionRow
  /-- A known execution was not there. -/
  lost : Bool
  /-- The newest child of a step. -/
  newest : Option (StepId × Option ExecutionRow)
  /-- The time, if it was read after that. -/
  time : Option ℕ
  /-- The child that was cancelled last, with its step. -/
  cancelled : Option (StepId × ExecutionRow)

namespace StartView

/-- Nothing is read. -/
def initial : StartView := ⟨[], false, none, none, none⟩

/-- The execution was found, or it is the parent of one that was. -/
def knows (v : StartView) (id : String) : Bool :=
  v.found.any fun row => decide (row.id = id) || decide (row.parentExecutionId = some id)

def next (v : StartView) : (statement : Statement) → Answer statement → StartView
  | .findExecution id, (none : Option ExecutionRow) => { v with lost := v.lost || v.knows id }
  | .findExecution _, (some row : Option ExecutionRow) => { v with found := row :: v.found }
  | .latestChild parent, (child : Option ExecutionRow) =>
    { v with newest := some (parent, child), time := none }
  | .now, (t : ℕ) => { v with time := some t }
  | .startChild .., _ => { v with newest := none }
  | .cancelChild .., _ =>
    { v with cancelled := v.newest.bind fun (step, child) => child.map fun child => (step, child) }
  | _, _ => v

end StartView

/-- The workflows of an execution and of its ancestors, as they were found. -/
inductive Lineage (found : List ExecutionRow) : String → List String → Prop where
  | root {row : ExecutionRow} (hfound : row ∈ found) (hparent : row.parentExecutionId = none) :
      Lineage found row.id [row.workflowId]
  | child {row : ExecutionRow} {parent : String} {ids : List String} (hfound : row ∈ found)
      (hparent : row.parentExecutionId = some parent) (rest : Lineage found parent ids) :
      Lineage found row.id (row.workflowId :: ids)

/-- The execution is a child of another one, as the service creates it. -/
structure ExecutionRow.IsChildOf (child parent : ExecutionRow) : Prop where
  organizationId : child.organizationId = parent.organizationId
  parentExecutionId : child.parentExecutionId = some parent.id
  executionMode : child.executionMode = parent.executionMode
  rootExecutionId : child.rootExecutionId = some (parent.rootExecutionId.getD parent.id)
  depth : child.depth = parent.depth + 1
  depth_le : child.depth ≤ Subworkflow.maxDepth

/-- A run of `e` with this view may start the child. -/
structure MayStart (e : String) (v : StartView) (row : StepRow) (child : ExecutionRow) : Prop where
  step : child.parentStepExecutionId = some row.id
  executionId : row.id.executionId = e
  parent : ∃ parent ∈ v.found, parent.id = e ∧ child.IsChildOf parent
  lineage : v.lost = true ∨ ∃ ids, Lineage v.found e ids ∧ child.workflowId ∉ ids
  newest : ∃ newest, v.newest = some (row.id, newest) ∧
    ∀ other ∈ newest, other.status.isActive = false
  time : v.time = some child.createdAt

/-- An execution is found by its identity. -/
def findsById : (statement : Statement) → Answer statement → Prop
  | .findExecution id, (some row : Option ExecutionRow) => row.id = id
  | _, _ => True

/-- What a run has read when it starts or cancels a child, or fails a step with a timeout. -/
def startProtocol (e : String) : Protocol Statement Answer StartView where
  ok v statement := match statement with
    | .startChild row _ child => MayStart e v row child
    | .cancelChild id _ => ∃ step child, v.newest = some (step, some child) ∧ child.id = id
    | .writeStep row (.childFail error _) =>
      error.isTimeout = true → ∃ child, v.cancelled = some (row.id, child)
    | _ => True
  rely statement answer := answersFor e statement answer ∧ findsById statement answer
  next := StartView.next

/-! ## Runs keep to it -/

variable {p : Platform} {e : String} {v : StartView} {step : StepDefinition} {row : StepRow}

/-- Statements that start and cancel no child and fail no subworkflow step are allowed. -/
lemma startProtocol_ok {statement : Statement}
    (hstart : ∀ row write child, statement ≠ .startChild row write child)
    (hcancel : ∀ id t, statement ≠ .cancelChild id t)
    (hfail : ∀ row error t, statement ≠ .writeStep row (.childFail error t)) :
    (startProtocol e).ok v statement := by
  cases statement with
  | startChild row write child => exact absurd rfl (hstart row write child)
  | cancelChild id t => exact absurd rfl (hcancel id t)
  | writeStep row write =>
    cases write with
    | childFail error t => exact absurd rfl (hfail row error t)
    | _ => exact trivial
  | _ => exact trivial

namespace Subworkflow

/-- Nothing in particular is known at the end. -/
abbrev KeepsTo {α : Type} (e : String) (program : Eng α) (v : StartView) : Prop :=
  Meets (startProtocol e) (fun _ _ => True) (fun _ _ => True) program v

lemma keepsTo_wait : KeepsTo e (wait row) v :=
  .step trivial fun _ _ => .step trivial fun _ _ => trivial

lemma keepsTo_fail {code message : String}
    (h : code = "TIMEOUT" → ∃ child, v.cancelled = some (row.id, child)) :
    KeepsTo e (fail row code message) v := by
  refine .step trivial fun _ _ => .step (fun htimeout => ?_) fun _ _ => trivial
  exact h (Option.some.inj (of_decide_eq_true htimeout))

/-- One round of `ancestry`: an execution, and the workflows below it. -/
def climb (next : String × List String) : Eng ((String × List String) ⊕ List String) := do
  let row ← findExecution next.1
  match row with
  | none => pure (.inr next.2)
  | some row =>
    let ids := setAdd next.2 row.workflowId
    match row.parentExecutionId with
    | none => pure (.inr ids)
    | some parent => pure (.inl (parent, ids))

/-- The workflows of all ancestors are collected, unless one of them is lost. -/
lemma meets_climb {id : String} {ids : List String} (hknown : v.knows id = true) (fuel : ℕ) :
    Meets (startProtocol e)
      (fun v' result => v.found ⊆ v'.found ∧ v'.newest = v.newest ∧ ids ⊆ result ∧
        (v'.lost = true ∨ ∃ lineage, Lineage v'.found id lineage ∧ lineage ⊆ result))
      (fun _ _ => True) (Prog.loop (exhausted .ancestry) climb fuel (id, ids)) v := by
  induction fuel generalizing id ids v with
  | zero => exact ⟨trivial, fun answer => nomatch answer⟩
  | succ fuel ih =>
    refine ⟨trivial, fun (found : Option ExecutionRow) hrely => ?_⟩
    cases found with
    | none =>
      refine ⟨fun _ h => h, rfl, fun _ h => h, .inl ?_⟩
      change (v.lost || v.knows id) = true
      rw [hknown, Bool.or_true]
    | some row =>
      obtain rfl : row.id = id := hrely.2
      have hids : ids ⊆ setAdd ids row.workflowId := fun _ h => mem_setAdd.mpr (.inl h)
      have hadded : row.workflowId ∈ setAdd ids row.workflowId := mem_setAdd.mpr (.inr rfl)
      cases hparent : row.parentExecutionId with
      | none =>
        change Meets _ _ _ (Prog.bind (match row.parentExecutionId with | none => _ | some _ => _) _) _
        rw [hparent]
        exact ⟨fun _ h => List.mem_cons_of_mem _ h, rfl, hids,
          .inr ⟨_, .root List.mem_cons_self hparent, by simp⟩⟩
      | some parent =>
        change Meets _ _ _ (Prog.bind (match row.parentExecutionId with | none => _ | some _ => _) _) _
        rw [hparent]
        have hnext : StartView.knows { v with found := row :: v.found } parent = true := by
          simp [StartView.knows, hparent]
        refine (ih hnext).mono (fun v' result h => ?_) fun _ _ h => h
        obtain ⟨hfound, hnewest, hresult, hlineage⟩ := h
        refine ⟨fun _ h => hfound (List.mem_cons_of_mem _ h), hnewest, fun _ h => hresult (hids h), ?_⟩
        refine hlineage.imp_right fun ⟨lineage, hlineage, hsubset⟩ =>
          ⟨_, .child (hfound List.mem_cons_self) hparent hlineage, ?_⟩
        exact List.cons_subset.mpr ⟨hresult hadded, hsubset⟩

/-- A child is started with what is known of its ancestors. -/
lemma keepsTo_start (hrow : row.id.executionId = e) (raw : Json) (config : Config)
    {newest : Option ExecutionRow} (hnewest : v.newest = some (row.id, newest))
    (hended : ∀ other ∈ newest, other.status.isActive = false) :
    KeepsTo e (start p e step row raw config) v := by
  refine .step trivial fun (parent : Option ExecutionRow) hrely => ?_
  cases parent with
  | none => exact trivial
  | some parent =>
    obtain rfl : parent.id = e := hrely.2
    change KeepsTo _ (if _ then _ else _) _
    split
    · exact keepsTo_fail (by simp)
    case isFalse hdepth =>
      have hknown : StartView.knows { v with found := parent :: v.found } parent.id = true := by
        simp [StartView.knows]
      refine (meets_climb hknown p.fuel).bind fun v₁ ids h => ?_
      obtain ⟨hfound, hnewest₁, -, hlineage⟩ := h
      split
      · exact keepsTo_fail (by simp)
      case isFalse hworkflow =>
        refine .step trivial fun (count : ℕ) _ => ?_
        split
        · exact keepsTo_fail (by simp)
        refine .step trivial fun (target : Except Failure SubworkflowTarget) _ => ?_
        cases target with
        | error failure => exact trivial
        | ok target =>
          change KeepsTo _ (if _ then _ else _) _
          split
          · exact keepsTo_fail (by simp)
          generalize p.assertSubworkflowJson ((raw.get? "input").getD .null) = checked
          cases checked with
          | error failure => exact trivial
          | ok input =>
            refine .step trivial fun (childId : String) _ => .step trivial fun (t : ℕ) _ =>
              .step ?_ fun _ _ => .step trivial fun _ _ => keepsTo_wait
            refine ⟨rfl, hrow, ⟨parent, hfound List.mem_cons_self, rfl, rfl, rfl, rfl, rfl, rfl, ?_⟩,
              hlineage.imp_right fun ⟨lineage, h, hsubset⟩ => ⟨lineage, h, ?_⟩,
              ⟨newest, hnewest₁.trans hnewest, hended⟩, rfl⟩
            · exact Nat.not_lt.mp hdepth
            · exact fun hmem => hworkflow (hsubset hmem)

/-- A call of the service. -/
lemma keepsTo_execute (hrow : row.id.executionId = e) (context : ContextId) :
    KeepsTo e (execute p e context step row) v := by
  refine .step trivial fun (raw : Except Failure Json) _ => ?_
  cases raw with
  | error failure => exact trivial
  | ok raw =>
    change KeepsTo e (Prog.bind (Prog.ofExcept (normalizeConfig p.js raw)) _) v
    generalize normalizeConfig p.js raw = config
    cases config with
    | error failure => exact trivial
    | ok config =>
      refine .step trivial fun (newest : Option ExecutionRow) _ => ?_
      cases newest with
      | none => exact keepsTo_start hrow _ _ rfl (by simp)
      | some child =>
        have hended : ∀ {status : ExecutionStatus}, child.status = status →
            status.isActive = false → ∀ other ∈ some child, other.status.isActive = false := by
          rintro _ rfl hactive _ ⟨⟩
          exact hactive
        dsimp only
        cases hstatus : child.status with
        | pending | queued | running | retrying =>
          refine .step trivial fun (t : ℕ) _ => ?_
          split
          · -- The child that was read is cancelled, and named.
            refine .step ⟨row.id, child, rfl, rfl⟩ fun _ _ => ?_
            change KeepsTo e (if _ then _ else _) _
            split
            · exact keepsTo_fail fun _ => ⟨child, rfl⟩
            · exact keepsTo_wait
          · exact keepsTo_wait
        | completed =>
          generalize p.assertSubworkflowJson _ = checked
          cases checked with
          | error failure => exact trivial
          | ok output => exact .step trivial fun _ _ => .step trivial fun _ _ => trivial
        | failed =>
          dsimp only
          split
          · exact keepsTo_fail (by simp)
          · exact keepsTo_start hrow _ _ rfl (hended hstatus rfl)
        | cancelled =>
          dsimp only
          split
          · exact keepsTo_fail (by simp)
          · exact keepsTo_start hrow _ _ rfl (hended hstatus rfl)

end Subworkflow

/-- **A run that starts or cancels a child**, or fails a step with a timeout, has read what it needs
for that. -/
theorem meets_startProtocol_run (p : Platform) (e : String) :
    Subworkflow.KeepsTo e (run p e) .initial := by
  refine Meets.mono (fun _ _ _ => trivial) (fun _ _ _ => trivial)
    (inScope_run.meets (fun _ => True)
      (fun statement answer (h : (startProtocol e).rely statement answer) => h.1) ?_ ?_ _ trivial)
  · intro v statement _ hallowed
    refine ⟨startProtocol_ok ?_ ?_ ?_, fun _ _ => trivial⟩
    all_goals
      intros
      rintro rfl
      cases hallowed.single
  · intro _ _ program hcall v _
    cases hcall with
    | attempt h =>
      refine Meets.mono (fun _ _ _ => trivial) (fun _ _ _ => trivial)
        (ofAttempt_execute.meets (fun _ => True) (fun _ _ h => h) ?_ (fun h => h.elim) _ trivial)
      intro v statement _ hallowed
      refine ⟨startProtocol_ok ?_ ?_ ?_, fun _ _ => trivial⟩
      all_goals
        intros
        rintro rfl
        simp [Statement.isOfAttempt, StepWrite.isOfAttempt] at hallowed
    | subworkflow h htype => exact Subworkflow.keepsTo_execute h.executionId _
    | runStep hsteps => cases hsteps

/-- The answers of the database are as `startProtocol` assumes. -/
lemma startProtocol_rely {job : Job} {clock : ℕ} {oracle : Oracle} {db db' : Database}
    {statement : Statement} {answer : Answer statement}
    (h : statement.perform p job clock oracle db = some (answer, db')) :
    (startProtocol job.executionId).rely statement answer := by
  refine ⟨answersFor_perform h, ?_⟩
  cases statement with
  | findExecution id =>
    obtain ⟨hfind, -⟩ := Prod.mk.inj (Option.some.inj h)
    cases answer with
    | none => exact trivial
    | some row => exact Database.id_of_get? (Option.filter_eq_some_iff.mp hfind).1
  | _ => exact trivial

end Flowmind
