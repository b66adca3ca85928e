import Flowmind.Publishing.Activation

/-!
# The active version

* `one_active_version` — whatever is committed, a workflow has at most one active version, and
  points to it.  This holds as long as no version is published while another version of the
  workflow is active or about to become so.
* `two_active_versions` — two calls at the same time.
-/

namespace Flowmind.Publishing

open Program Store TxTable
open CrewAction (goes)

/-! ## The protocol -/

/-- What is known of a call: the active versions that it has found and not yet archived, whether it
has published its version, and whether the workflow points to it. -/
structure ActivationView where
  request : ActivationRequest
  pending : Option (List String) := none
  promoted : Bool := false
  pointed : Bool := false

def activationProtocol : Protocol ActivationStatement ActivationAnswer ActivationView where
  ok view
    | .findActive organizationId workflowId => view.promoted = false ∧
        organizationId = view.request.organizationId ∧ workflowId = view.request.workflowId
    | .archive organizationId workflowId id => view.promoted = false ∧
        organizationId = view.request.organizationId ∧ workflowId = view.request.workflowId ∧
        ∃ rest, view.pending = some (id :: rest)
    | .promote request => view.promoted = false ∧ view.pending = some [] ∧ request = view.request
    | .pointTo workflowId versionId => view.promoted = true ∧ view.pointed = false ∧
        workflowId = view.request.workflowId ∧ versionId = view.request.versionId
    | .commit => view.pointed = true
    | _ => True
  rely _ _ := True
  next view
    | .findActive .., (ids : List String) => { view with pending := some ids }
    | .archive .., _ => { view with pending := view.pending.map List.tail }
    | .promote _, (count : ℕ) => { view with promoted := decide (count = 1) }
    | .pointTo .., (count : ℕ) => { view with pointed := decide (count ≠ 0) }
    | .commit, _ => { request := view.request }
    | _, _ => view

variable {view : ActivationView}

section Meets

variable {request : ActivationRequest}

/-- The call keeps to the protocol. -/
abbrev Proper {α : Type} (program : Activation α) (view : ActivationView) : Prop :=
  Meets activationProtocol (fun _ _ => True) (fun _ _ => True) program view

lemma proper_activate (hrequest : view.request = request) (hpromoted : view.promoted = false)
    (hpointed : view.pointed = false) : Proper (activate request) view := by
  refine .step ⟨hpromoted, congrArg _ hrequest.symm, congrArg _ hrequest.symm⟩
    fun (active : List String) _ => ?_
  have heach : Meets activationProtocol (fun view' _ => view' = { view with pending := some [] })
      (fun _ _ => True) (Prog.each (Activation.archive request) active)
      { view with pending := some active } := by
    refine Meets.each (fun rest view' => view' = { view with pending := some rest })
      (fun id rest view' heq => ?_) active _ rfl
    subst heq
    exact .step ⟨hpromoted, congrArg _ hrequest.symm, congrArg _ hrequest.symm, rest, rfl⟩
      fun _ _ => rfl
  refine heach.bind ?_
  rintro _ _ rfl
  refine .step ⟨hpromoted, rfl, hrequest.symm⟩ fun (count : ℕ) _ => ?_
  split_ifs with hcount
  · refine .step ⟨decide_eq_true hcount, hpointed, congrArg _ hrequest.symm,
      congrArg _ hrequest.symm⟩ fun (updated : ℕ) _ => ?_
    split_ifs with hupdated
    · trivial
    · exact .step (decide_eq_true hupdated) fun _ _ => trivial
  · trivial

lemma proper_activateVersion : Proper (activateVersion request) { request } := by
  refine .step trivial fun (version : Option WorkflowVersionRow) _ => ?_
  cases version with
  | none => trivial
  | some version =>
    refine Meets.ite trivial ?_
    refine .step trivial fun (refusal : Option String) _ => ?_
    cases refusal with
    | some => trivial
    | none => exact proper_activate rfl rfl rfl

end Meets

/-! ## Steps -/

/-- What happens in the system of all calls. -/
abbrev ActivationEvent : Type := CrewEvent ℕ Unit ActivationAnswer ActivationError Unit Change

/-- All calls. -/
abbrev ActivationCrew : Type := Crew ℕ Data ActivationStatement ActivationAnswer ActivationError Unit

/-- What is known of all calls. -/
abbrev ActivationViews : Type := Views ℕ Data ActivationView

/-- One step of what is known of all calls. -/
abbrev ActivationStep (requests : ℕ → ActivationRequest) :
    ActivationViews → ActivationEvent → ActivationViews → Prop :=
  ViewStep (activations requests) activationProtocol (fun i _ => { request := requests i })
    (fun _ _ => True) fun _ _ => True

/-- When a version is published, the transaction sees no active version of the workflow, and no
transaction has published one that is not committed. -/
def Unrivalled (s : Data) : ActivationEvent → Prop
  | .perform i (.promote request) _ =>
    (∀ row ∈ (s.versions.seen i).rows, row.workflowId = request.workflowId →
      row.status ≠ .active) ∧
    ∀ written ∈ s.versions.written.rows, written.row.workflowId = request.workflowId →
      written.row.status ≠ .active
  | _ => True

instance (s : Data) : DecidablePred (Unrivalled s) := fun event => by
  unfold Unrivalled
  split <;> infer_instance

variable {requests : ℕ → ActivationRequest} {w w' : ActivationViews} {event : ActivationEvent}
  {events : List ActivationEvent} {s s' : Data} {i : ℕ}

/-- What a statement of a call writes. -/
inductive Effect (i : ℕ) (view : ActivationView) (s : Data) :
    (op : ActivationStatement) → ActivationAnswer op → Data → Prop where
  | idle {op : ActivationStatement} {answer : ActivationAnswer op}
      (hnext : activationProtocol.next view op answer = view) : Effect i view s op answer s
  | found : Effect i view s
      (.findActive view.request.organizationId view.request.workflowId)
      (((s.versions.seen i).rows.filter
        (isActiveOf view.request.organizationId view.request.workflowId)).map (·.id) : List String) s
  | missed {id : String} {rest : List String} (hpending : view.pending = some (id :: rest))
      (hmissed : ∀ row, (s.versions.seen i).get? id = some row →
        isActiveOf view.request.organizationId view.request.workflowId row = false) :
      Effect i view s (.archive view.request.organizationId view.request.workflowId id) () s
  | archived {id : String} {rest : List String} {row : WorkflowVersionRow}
      (hpending : view.pending = some (id :: rest)) (hpromoted : view.promoted = false)
      (hfree : s.versions.isFree i id = true) (hrow : (s.versions.seen i).get? id = some row)
      (hworkflow : row.workflowId = view.request.workflowId) :
      Effect i view s (.archive view.request.organizationId view.request.workflowId id) ()
        { s with versions := s.versions.write i (archived row) }
  | promoted {row : WorkflowVersionRow} (hpromoted : view.promoted = false)
      (hfree : s.versions.isFree i view.request.versionId = true)
      (hrow : (s.versions.seen i).get? view.request.versionId = some row)
      (hworkflow : row.workflowId = view.request.workflowId) :
      Effect i view s (.promote view.request) (1 : ℕ)
        { s with versions := s.versions.write i (published s.clock row) }
  | pointed {row : WorkflowRow} (hpromoted : view.promoted = true)
      (hfree : s.workflows.isFree i view.request.workflowId = true)
      (hrow : (s.workflows.seen i).get? view.request.workflowId = some row) :
      Effect i view s (.pointTo view.request.workflowId view.request.versionId) (1 : ℕ)
        { s with workflows := s.workflows.write i (pointing view.request.versionId row) }
  | commit (hpointed : view.pointed = true) :
      Effect i view s .commit ()
        { s with versions := s.versions.commit i, workflows := s.workflows.commit i }

variable {op : ActivationStatement} {answer : ActivationAnswer op}

lemma effect_of_perform {refusal : Option String} (hok : activationProtocol.ok view op)
    (h : op.perform i refusal s = some (answer, s')) : Effect i view s op answer s' := by
  cases op with
  | findVersion | validate =>
    cases h
    exact .idle rfl
  | findActive =>
    obtain ⟨-, rfl, rfl⟩ := hok
    cases h
    exact .found
  | archive organizationId workflowId id =>
    obtain ⟨hpromoted, rfl, rfl, rest, hpending⟩ := hok
    obtain ⟨⟨n, versions⟩, hupdate, ⟨⟩⟩ := Option.map_eq_some_iff.mp h
    rcases updateRow_cases hupdate with ⟨rfl, rfl⟩ | ⟨-, row, hfree, hrow, hactive, rfl⟩
    · exact .missed hpending fun _ hrow => updateRow_zero hupdate hrow
    · simp only [isActiveOf, Bool.and_eq_true, decide_eq_true_eq] at hactive
      exact .archived hpending hpromoted hfree hrow hactive.1.1
  | promote request =>
    obtain ⟨hpromoted, -, rfl⟩ := hok
    obtain ⟨⟨n, versions⟩, hupdate, ⟨⟩⟩ := Option.map_eq_some_iff.mp h
    rcases updateRow_cases hupdate with ⟨rfl, rfl⟩ | ⟨rfl, row, hfree, hrow, hdraft, rfl⟩
    · refine .idle ?_
      cases view
      simp_all [activationProtocol]
    · simp only [ActivationRequest.isPublishable, Bool.and_eq_true, decide_eq_true_eq] at hdraft
      exact .promoted hpromoted hfree hrow hdraft.1.1.1
  | pointTo workflowId versionId =>
    obtain ⟨hpromoted, hpointed, rfl, rfl⟩ := hok
    obtain ⟨⟨n, workflows⟩, hupdate, ⟨⟩⟩ := Option.map_eq_some_iff.mp h
    rcases updateRow_cases hupdate with ⟨rfl, rfl⟩ | ⟨rfl, row, hfree, hrow, -, rfl⟩
    · refine .idle ?_
      cases view
      simp_all [activationProtocol]
    · exact .pointed hpromoted hfree hrow
  | commit =>
    cases h
    exact .commit hok

lemma id_archived (row : WorkflowVersionRow) : (archived row).id = row.id := rfl

lemma id_published (now : ℕ) (row : WorkflowVersionRow) : (published now row).id = row.id := rfl

lemma id_pointing (versionId : String) (row : WorkflowRow) :
    (pointing versionId row).id = row.id := rfl

/-- The rows of other transactions are as before. -/
lemma Effect.keeps (h : Effect i view s op answer s') {j : ℕ} (hij : j ≠ i) :
    s.versions.Keeps j s'.versions ∧ s.workflows.Keeps j s'.workflows := by
  cases h with
  | idle | found | missed => exact ⟨.refl j _, .refl j _⟩
  | archived _ _ hfree hrow =>
    refine ⟨keeps_write hij ?_, .refl j _⟩
    rwa [id_archived, Table.key_of_get? hrow]
  | promoted _ hfree hrow =>
    refine ⟨keeps_write hij ?_, .refl j _⟩
    rwa [id_published, Table.key_of_get? hrow]
  | pointed _ hfree hrow =>
    refine ⟨.refl j _, keeps_write hij ?_⟩
    rwa [id_pointing, Table.key_of_get? hrow]
  | commit => exact ⟨keeps_commit hij, keeps_commit hij⟩

/-- What others do. -/
lemma change_cases {change : Change} (h : change.perform s = some s') :
    (s'.versions = s.versions ∨ ∃ id organizationId workflowId definition,
      change = .createVersion id organizationId workflowId definition ∧
      s.versions.insertNow (newVersion id organizationId workflowId definition) =
        some s'.versions) ∧
    (s'.workflows = s.workflows ∨ ∃ row, s.workflows.insertNow row = some s'.workflows) := by
  cases change with
  | tick =>
    obtain ⟨-, ⟨⟩⟩ := Option.ite_none_right_eq_some.mp h
    exact ⟨.inl rfl, .inl rfl⟩
  | createWorkflow =>
    obtain ⟨workflows, hinsert, rfl⟩ := Option.map_eq_some_iff.mp h
    exact ⟨.inl rfl, .inr ⟨_, hinsert⟩⟩
  | createVersion =>
    obtain ⟨versions, hinsert, rfl⟩ := Option.map_eq_some_iff.mp h
    exact ⟨.inr ⟨_, _, _, _, rfl, hinsert⟩, .inl rfl⟩

lemma keeps_of_change {change : Change} (h : change.perform s = some s') (j : ℕ) :
    s.versions.Keeps j s'.versions ∧ s.workflows.Keeps j s'.workflows := by
  obtain ⟨hversions, hworkflows⟩ := change_cases h
  constructor
  · rcases hversions with heq | ⟨_, _, _, _, -, hinsert⟩
    · exact heq ▸ .refl j _
    · exact keeps_insertNow j hinsert
  · rcases hworkflows with heq | ⟨row, hinsert⟩
    · exact heq ▸ .refl j _
    · exact keeps_insertNow j hinsert

/-- A version that is active was not created just now. -/
lemma committed_of_change {change : Change} (h : change.perform s = some s') {id : String}
    {row : WorkflowVersionRow} (hrow : s'.versions.committed.get? id = some row)
    (hactive : row.status = .active) : s.versions.committed.get? id = some row := by
  rcases (change_cases h).1 with heq | ⟨_, _, _, _, -, hinsert⟩
  · exact heq ▸ hrow
  · rw [(insertNow_cases hinsert).2.2.2] at hrow
    split_ifs at hrow
    · cases hrow
      cases hactive
    · exact hrow

/-! ## What a call has written -/

/-- A call has written versions of its workflow, of which only its own is active, and its
workflow. -/
structure HeldBy (requests : ℕ → ActivationRequest) (s : Data) (i : ℕ)
    (view : Option ActivationView) : Prop where
  asked : ∀ v, view = some v → v.request = requests i
  versions : ∀ {k written}, s.versions.written.get? k = some written → written.owner = i →
    ∃ v, view = some v ∧ written.row.workflowId = (requests i).workflowId ∧
      (written.row.status = .active → v.promoted = true ∧ k = (requests i).versionId)
  workflows : ∀ {k written}, s.workflows.written.get? k = some written → written.owner = i →
    ∃ v, view = some v ∧ v.pointed = true ∧ k = (requests i).workflowId ∧
      written.row.activeVersionId = some (requests i).versionId
  promoted : ∀ {v}, view = some v → v.promoted = true →
    ∃ row, s.versions.written.get? (requests i).versionId = some ⟨i, row⟩ ∧ row.status = .active
  pointed : ∀ {v}, view = some v → v.pointed = true → v.promoted = true ∧
    ∃ row, s.workflows.written.get? (requests i).workflowId = some ⟨i, row⟩

lemma HeldBy.keeps {view : Option ActivationView} (h : HeldBy requests s i view)
    (hversions : s.versions.Keeps i s'.versions) (hworkflows : s.workflows.Keeps i s'.workflows) :
    HeldBy requests s' i view where
  asked := h.asked
  versions hwritten howner := h.versions (hversions.back hwritten howner) howner
  workflows hwritten howner := h.workflows (hworkflows.back hwritten howner) howner
  promoted hv hpromoted := by
    obtain ⟨row, hrow, hactive⟩ := h.promoted hv hpromoted
    exact ⟨row, (hversions.written hrow rfl).1, hactive⟩
  pointed hv hpointed := by
    obtain ⟨hpromoted, row, hrow⟩ := h.pointed hv hpointed
    exact ⟨hpromoted, row, (hworkflows.written hrow rfl).1⟩

/-- A call that has written nothing. -/
lemma heldBy_of_none {view : Option ActivationView}
    (hasked : ∀ v, view = some v → v.request = requests i)
    (hversions : ∀ {k written}, s.versions.written.get? k = some written → written.owner ≠ i)
    (hworkflows : ∀ {k written}, s.workflows.written.get? k = some written → written.owner ≠ i)
    (hview : ∀ v, view = some v → v.promoted = false ∧ v.pointed = false) :
    HeldBy requests s i view where
  asked := hasked
  versions hwritten howner := absurd howner (hversions hwritten)
  workflows hwritten howner := absurd howner (hworkflows hwritten)
  promoted {v} hv hpromoted := by
    simp [(hview v hv).1] at hpromoted
  pointed {v} hv hpointed := by
    simp [(hview v hv).2] at hpointed

/-- The versions that are to be archived say nothing of what is written. -/
lemma HeldBy.pending (h : HeldBy requests s i (some view)) (pending : Option (List String)) :
    HeldBy requests s i (some { view with pending }) where
  asked _ hv := Option.some.inj hv ▸ h.asked view rfl
  versions hwritten howner := by
    obtain ⟨_, ⟨⟩, hrest⟩ := h.versions hwritten howner
    exact ⟨_, rfl, hrest⟩
  workflows hwritten howner := by
    obtain ⟨_, ⟨⟩, hrest⟩ := h.workflows hwritten howner
    exact ⟨_, rfl, hrest⟩
  promoted hv hpromoted := by
    cases hv
    exact h.promoted rfl hpromoted
  pointed hv hpointed := by
    cases hv
    exact h.pointed (v := view) rfl hpointed

lemma HeldBy.not_pointed (h : HeldBy requests s i (some view)) (hpromoted : view.promoted = false) :
    view.pointed = false := by
  by_contra hpointed
  have hboth := (h.pointed rfl (by simpa using hpointed)).1
  simp [hpromoted] at hboth

/-- What a call has written after one of its own statements. -/
lemma HeldBy.perform (h : HeldBy requests s i (some view))
    (heffect : Effect i view s op answer s') :
    HeldBy requests s' i (some (activationProtocol.next view op answer)) := by
  have hasked := h.asked view rfl
  cases heffect with
  | idle hnext =>
    rw [hnext]
    exact h
  | found | missed => exact h.pending _
  | @archived id _ row _ hpromoted hfree hrow hworkflow =>
    have hheld : HeldBy requests { s with versions := s.versions.write i (archived row) } i
        (some view) := by
      refine ⟨h.asked, fun {k written} hwritten howner => ?_, h.workflows, ?_, h.pointed⟩
      · rcases written_write_cases hwritten with ⟨-, rfl⟩ | ⟨-, hwritten⟩
        · exact ⟨view, rfl, hasked ▸ hworkflow, by simp [archived]⟩
        · exact h.versions hwritten howner
      · rintro _ ⟨⟩ htrue
        simp [hpromoted] at htrue
    exact hheld.pending _
  | @promoted row hpromoted hfree hrow hworkflow =>
    have hid : (published s.clock row).id = (requests i).versionId := by
      rw [id_published, Table.key_of_get? hrow, hasked]
    refine ⟨?_, fun {k written} hwritten howner => ?_, fun hwritten howner => ?_, ?_, ?_⟩
    · rintro _ ⟨⟩
      exact hasked
    · refine ⟨_, rfl, ?_⟩
      rcases written_write_cases hwritten with ⟨hk, rfl⟩ | ⟨-, hwritten⟩
      · exact ⟨hasked ▸ hworkflow, fun _ => ⟨rfl, hk.symm.trans hid⟩⟩
      · obtain ⟨v, hv, hwf, hactive⟩ := h.versions hwritten howner
        cases hv
        refine ⟨hwf, fun hstatus => ?_⟩
        simp [hpromoted] at hactive
        exact absurd hstatus hactive
    · obtain ⟨v, hv, hpointed, -⟩ := h.workflows hwritten howner
      cases hv
      simp [h.not_pointed hpromoted] at hpointed
    · rintro _ ⟨⟩ _
      exact ⟨published s.clock row, written_write _ _ hid, rfl⟩
    · rintro _ ⟨⟩ hpointed
      have hnot := h.not_pointed hpromoted
      simp [activationProtocol, hnot] at hpointed
  | @pointed row hpromoted hfree hrow =>
    have hid : (pointing view.request.versionId row).id = (requests i).workflowId := by
      rw [id_pointing, Table.key_of_get? hrow, hasked]
    refine ⟨?_, fun hwritten howner => ?_, fun {k written} hwritten howner => ?_, ?_, ?_⟩
    · rintro _ ⟨⟩
      exact hasked
    · obtain ⟨v, hv, hrest⟩ := h.versions hwritten howner
      cases hv
      exact ⟨_, rfl, hrest⟩
    · refine ⟨_, rfl, rfl, ?_⟩
      rcases written_write_cases hwritten with ⟨hk, rfl⟩ | ⟨-, hwritten⟩
      · exact ⟨hk.symm.trans hid, hasked ▸ rfl⟩
      · obtain ⟨v, -, -, hrest⟩ := h.workflows hwritten howner
        exact hrest
    · rintro _ ⟨⟩ hv
      exact h.promoted rfl hv
    · rintro _ ⟨⟩ _
      exact ⟨hpromoted, _, written_write _ _ hid⟩
  | commit =>
    refine heldBy_of_none ?_ (fun hwritten => owner_ne_of_commit hwritten)
      (fun hwritten => owner_ne_of_commit hwritten) ?_
    · rintro _ ⟨⟩
      exact hasked
    · rintro _ ⟨⟩
      exact ⟨rfl, rfl⟩

/-! ## Versions that are active -/

/-- The workflow of a version that is active: an index in which no two versions have the same
entry. -/
def activeOf (row : WorkflowVersionRow) : Option String :=
  if row.status = .active then some row.workflowId else none

lemma activeOf_eq_some_iff {row : WorkflowVersionRow} {workflowId : String} :
    activeOf row = some workflowId ↔ row.status = .active ∧ row.workflowId = workflowId := by
  simp [activeOf]

/-- A version is published while no other one is active or about to become so. -/
lemma indexed_promote {t : TxTable ℕ WorkflowVersionRow WorkflowVersionRow.id}
    {row : WorkflowVersionRow} (h : t.Indexed activeOf) (hfree : t.isFree i row.id = true)
    (hseen : ∀ {k row'}, (t.seen i).get? k = some row' → row'.workflowId = row.workflowId →
      row'.status ≠ .active) (hnone : ∀ {k written}, t.written.get? k = some written →
      written.row.workflowId = row.workflowId → written.row.status ≠ .active) :
    (t.write i row).Indexed activeOf := by
  refine h.write (isFree_iff.mp hfree) (fun hnew hwritten hentry => ?_)
    fun {k row' workflowId} hnew hrow' hentry => .inr ?_
  · obtain ⟨-, rfl⟩ := activeOf_eq_some_iff.mp hnew
    obtain ⟨hactive, hsame⟩ := activeOf_eq_some_iff.mp hentry
    exact absurd hactive (hnone hwritten hsame)
  · -- An active version that is committed is seen, unless the transaction has written over it.
    obtain ⟨-, rfl⟩ := activeOf_eq_some_iff.mp hnew
    obtain ⟨hactive, hsame⟩ := activeOf_eq_some_iff.mp hentry
    by_contra hnot
    refine hseen (k := k) ?_ hsame hactive
    rw [get?_seen_of_not fun w hw howner => hnot ⟨w, hw, howner⟩, hrow']

/-! ## All calls -/

/-- A version that is active is the one that its workflow points to. -/
def Data.Points (s : Data) : Prop :=
  ∀ id row, s.versions.committed.get? id = some row → row.status = .active →
    ∃ workflow, s.workflows.committed.get? row.workflowId = some workflow ∧
      workflow.activeVersionId = some id

lemma Data.Points.unique (h : s.Points) {id id' : String} {row row' : WorkflowVersionRow}
    (hrow : s.versions.committed.get? id = some row)
    (hrow' : s.versions.committed.get? id' = some row') (hactive : row.status = .active)
    (hactive' : row'.status = .active) (hsame : row.workflowId = row'.workflowId) : id = id' := by
  obtain ⟨workflow, hworkflow, hid⟩ := h id row hrow hactive
  obtain ⟨workflow', hworkflow', hid'⟩ := h id' row' hrow' hactive'
  rw [hsame, hworkflow', Option.some.injEq] at hworkflow
  subst hworkflow
  exact Option.some.inj (hid.symm.trans hid')

/-- The invariant of a run. -/
structure Sound (requests : ℕ → ActivationRequest) (w : ActivationViews) : Prop where
  held : ∀ i, HeldBy requests w.shared i (w.view i)
  indexed : w.shared.versions.Indexed activeOf
  points : w.shared.Points

lemma held_step (h : ∀ i, HeldBy requests w.shared i (w.view i))
    (hstep : ActivationStep requests w event w') (i : ℕ) :
    HeldBy requests w'.shared i (w'.view i) := by
  refine hstep.members h (fun i _ hidle => ?_) (fun i op answer s' view _ hperf hheld => ?_)
    (fun i => ?_) (fun i j op answer s' view v hji hperf hheld => ?_)
    (fun i j v hji hheld =>
      hheld.keeps (keeps_rollback hji) (keeps_rollback hji))
    (fun change s' j v hother hheld => ?_) i
  · refine heldBy_of_none ?_ (fun hwritten howner => ?_) (fun hwritten howner => ?_) ?_
    · rintro _ ⟨⟩
      rfl
    · obtain ⟨v, hv, -⟩ := hidle.versions hwritten howner
      cases hv
    · obtain ⟨v, hv, -⟩ := hidle.workflows hwritten howner
      cases hv
    · rintro _ ⟨⟩
      exact ⟨rfl, rfl⟩
  · obtain ⟨refusal, hperform⟩ := hperf.perform
    exact hheld.perform (effect_of_perform hperf.ok hperform)
  · exact heldBy_of_none (by rintro _ ⟨⟩) (fun hwritten => owner_ne_of_rollback hwritten)
      (fun hwritten => owner_ne_of_rollback hwritten) (by rintro _ ⟨⟩)
  · obtain ⟨refusal, hperform⟩ := hperf.perform
    have hkeeps := (effect_of_perform hperf.ok hperform).keeps hji
    exact hheld.keeps hkeeps.1 hkeeps.2
  · have hkeeps := keeps_of_change hother j
    exact hheld.keeps hkeeps.1 hkeeps.2

lemma Effect.indexed (heffect : Effect i view s op answer s') (h : s.versions.Indexed activeOf)
    (hguard : Unrivalled s (.perform i op answer)) : s'.versions.Indexed activeOf := by
  cases heffect with
  | idle | found | missed | pointed => exact h
  | archived _ hpromoted hfree hrow =>
    refine h.write_seen hfree hrow ((id_archived _).trans (Table.key_of_get? hrow)) fun entry hentry => ?_
    simp [activeOf, Publishing.archived] at hentry
  | promoted hpromoted hfree hrow hworkflow =>
    refine indexed_promote h ?_ (fun hseen hsame => ?_) fun hwritten hsame => ?_
    · rwa [id_published, Table.key_of_get? hrow]
    · exact hguard.1 _ (Table.get?_eq_some_iff.mp hseen).1 (hsame.trans hworkflow)
    · exact hguard.2 _ (Table.get?_eq_some_iff.mp hwritten).1 (hsame.trans hworkflow)
  | commit => exact h.commit i

section

variable (h : Sound requests w)
include h

lemma Sound.indexed_step (hstep : ActivationStep requests w event w')
    (hguard : Unrivalled w.shared event) : w'.shared.versions.Indexed activeOf := by
  cases hstep with
  | start => exact h.indexed
  | @perform i view _ _ _ _ hview hok _ hperform =>
    exact (effect_of_perform hok hperform).indexed h.indexed hguard
  | ret | fail | crash => exact h.indexed.rollback _
  | other hother =>
    rcases (change_cases hother).1 with heq | ⟨_, _, _, _, -, hinsert⟩
    · exact heq ▸ h.indexed
    · exact h.indexed.insertNow rfl hinsert

/-- A call commits: the version it has published is the active one, and the workflow points to
it. -/
lemma Sound.points_commit (hview : w.view i = some view) (hpointed : view.pointed = true) :
    Data.Points { w.shared with
      versions := w.shared.versions.commit i, workflows := w.shared.workflows.commit i } := by
  have hheld : HeldBy requests w.shared i (some view) := hview ▸ h.held i
  obtain ⟨hpromoted, workflow, hworkflow⟩ := hheld.pointed rfl hpointed
  obtain ⟨version, hversion, hactive⟩ := hheld.promoted rfl hpromoted
  obtain ⟨_, -, hof, -⟩ := hheld.versions hversion rfl
  intro id row hrow hstatus
  simp only [get?_commit] at hrow ⊢
  rcases seen_cases hrow with ⟨written, hwritten, howner, rfl⟩ | ⟨hnot, hrow⟩
  · obtain ⟨_, -, hsame, hown⟩ := hheld.versions hwritten howner
    obtain ⟨-, rfl⟩ := hown hstatus
    refine ⟨workflow, ?_, (hheld.workflows hworkflow rfl).choose_spec.2.2.2⟩
    rw [hsame, get?_seen_of_written hworkflow rfl]
  · -- A version of another workflow: the call has not touched it, nor its workflow.
    have hother : row.workflowId ≠ (requests i).workflowId := by
      intro heq
      rcases h.indexed.mixed hversion hrow (activeOf_eq_some_iff.mpr ⟨hactive, hof⟩)
        (activeOf_eq_some_iff.mpr ⟨hstatus, heq⟩) with rfl | ⟨written', hwritten', howner⟩
      · exact hnot _ hversion rfl
      · exact hnot written' hwritten' howner
    obtain ⟨workflow', hworkflow', hpoints⟩ := h.points id row hrow hstatus
    refine ⟨workflow', ?_, hpoints⟩
    rw [get?_seen_of_not fun written hwritten howner => ?_, hworkflow']
    obtain ⟨_, -, -, hid, -⟩ := hheld.workflows hwritten howner
    exact hother hid

lemma Sound.points_step (hstep : ActivationStep requests w event w') : w'.shared.Points := by
  cases hstep with
  | start | ret | fail | crash => exact h.points
  | @perform i view op answer s' refusal hview hok _ hperform =>
    cases effect_of_perform hok hperform with
    | idle | found | missed | archived | promoted | pointed => exact h.points
    | commit hpointed => exact h.points_commit hview hpointed
  | other hother =>
    intro id row hrow hstatus
    obtain ⟨workflow, hworkflow, hpoints⟩ :=
      h.points id row (committed_of_change hother hrow hstatus) hstatus
    refine ⟨workflow, ?_, hpoints⟩
    rcases (change_cases hother).2 with heq | ⟨new, hinsert⟩
    · exact heq ▸ hworkflow
    · obtain ⟨hfresh, -, -, hcommitted⟩ := insertNow_cases hinsert
      have hne : new.id ≠ row.workflowId := by
        intro heq
        simp [heq, hworkflow] at hfresh
      rw [hcommitted, if_neg hne, hworkflow]

lemma Sound.step (hstep : ActivationStep requests w event w') (hguard : Unrivalled w.shared event) :
    Sound requests w' :=
  ⟨held_step h.held hstep, h.indexed_step hstep hguard, h.points_step hstep⟩

end

/-- Before anybody is at work. -/
lemma sound_idle {clock : ℕ} {versions : Table WorkflowVersionRow WorkflowVersionRow.id}
    {workflows : Table WorkflowRow WorkflowRow.id}
    (hpoints : Data.Points ⟨clock, .settled versions, .settled workflows⟩) :
    Sound requests (.idle ⟨clock, .settled versions, .settled workflows⟩) where
  held i := heldBy_of_none (by rintro _ ⟨⟩) (by rintro _ _ ⟨⟩) (by rintro _ _ ⟨⟩) (by rintro _ ⟨⟩)
  indexed := by
    refine ⟨fun {k k' row row' workflowId} hrow hrow' hentry hentry' => ?_, ?_, ?_⟩
    · obtain ⟨hactive, rfl⟩ := activeOf_eq_some_iff.mp hentry
      obtain ⟨hactive', hsame⟩ := activeOf_eq_some_iff.mp hentry'
      exact hpoints.unique hrow hrow' hactive hactive' hsame.symm
    · rintro _ _ _ _ _ ⟨⟩
    · rintro _ _ _ _ _ ⟨⟩
  points := hpoints

/-! ## Calls that do not overlap -/

/-- A step in which no call starts while another one for its workflow is under way, and no version
is created outside the organization of its workflow. -/
structure ApartStep (requests : ℕ → ActivationRequest) (owner : String → String)
    (c : ActivationCrew) (event : ActivationEvent) (c' : ActivationCrew) : Prop where
  step : CrewStep (activations requests) c event c'
  apart : ∀ i j, event = .start i () → c.active j ≠ none →
    (requests j).workflowId ≠ (requests i).workflowId
  owned : ∀ id organizationId workflowId definition,
    event = .other (.createVersion id organizationId workflowId definition) →
    organizationId = owner workflowId

/-- The version belongs to the organization of its workflow. -/
def Owned (owner : String → String) (row : WorkflowVersionRow) : Prop :=
  row.organizationId = owner row.workflowId

/-- There is one call for a workflow at a time, and the active versions that it sees are those that
it has yet to archive. -/
structure Apart (requests : ℕ → ActivationRequest) (owner : String → String) (w : ActivationViews) :
    Prop where
  held : ∀ i, HeldBy requests w.shared i (w.view i)
  owned : w.shared.versions.All (Owned owner)
  alone : ∀ {i j v v'}, w.view i = some v → w.view j = some v' →
    (requests i).workflowId = (requests j).workflowId → i = j
  pending : ∀ {i v ids k row}, w.view i = some v → v.promoted = false → v.pending = some ids →
    (w.shared.versions.seen i).get? k = some row →
    activeOf row = some (requests i).workflowId → k ∈ ids

section Apart

variable {owner : String → String}

/-- What is committed by a statement was committed, or written by the call. -/
lemma Effect.committed_cases (h : Effect i view s op answer s') {k : String}
    {row : WorkflowVersionRow} (hrow : s'.versions.committed.get? k = some row) :
    s.versions.committed.get? k = some row ∨
      ∃ written, s.versions.written.get? k = some written ∧ written.owner = i ∧
        written.row = row := by
  cases h with
  | idle | found | missed | archived | promoted | pointed => exact .inl hrow
  | commit => exact (seen_cases hrow).symm.imp_left And.right

lemma Effect.owned (heffect : Effect i view s op answer s') (h : s.versions.All (Owned owner)) :
    s'.versions.All (Owned owner) := by
  cases heffect with
  | idle | found | missed | pointed => exact h
  | @archived _ _ row _ _ _ hrow | @promoted row _ _ hrow =>
    have hold : Owned owner row := h.seen hrow
    exact h.write hold
  | commit => exact h.commit i

lemma isActiveOf_of_owned {request : ActivationRequest} {row : WorkflowVersionRow}
    (hrequest : request.organizationId = owner request.workflowId) (hrow : Owned owner row)
    (hactive : activeOf row = some request.workflowId) :
    isActiveOf request.organizationId request.workflowId row = true := by
  obtain ⟨hstatus, hof⟩ := activeOf_eq_some_iff.mp hactive
  rw [Owned, hof] at hrow
  simp [isActiveOf, hstatus, hof, hrow, hrequest]

section

variable (h : Apart requests owner w)
include h

/-- A call publishes its version when it has archived what it has found. -/
lemma Apart.unrivalled (hview : w.view i = some view) (hok : activationProtocol.ok view op) :
    Unrivalled w.shared (.perform i op answer) := by
  cases op with
  | promote request =>
    obtain ⟨hpromoted, hpending, rfl⟩ := hok
    have hasked := (h.held i).asked view hview
    have hnone : ∀ {k row}, (w.shared.versions.seen i).get? k = some row →
        row.workflowId = view.request.workflowId → row.status ≠ .active := by
      intro k row hrow hsame hactive
      have hmem := h.pending hview hpromoted hpending hrow
        (activeOf_eq_some_iff.mpr ⟨hactive, hasked ▸ hsame⟩)
      cases hmem
    refine ⟨fun row hrow => hnone (Table.get?_eq_some_iff.mpr ⟨hrow, rfl⟩),
      fun written hwritten hsame => ?_⟩
    have hget := Table.get?_eq_some_iff.mpr ⟨hwritten, rfl⟩
    obtain ⟨v, hv, hof, -⟩ := (h.held written.owner).versions hget rfl
    have howner := h.alone hv hview (hof.symm.trans (hasked ▸ hsame))
    exact hnone (get?_seen_of_written hget howner) hsame
  | _ => trivial

/-- The call itself finds the active versions, and archives them one by one. -/
lemma Apart.pending_own {s' : Data} (hview : w.view i = some view)
    (hrequest : view.request.organizationId = owner view.request.workflowId)
    (heffect : Effect i view w.shared op answer s') {ids : List String} {k : String}
    {row : WorkflowVersionRow}
    (hpromoted : (activationProtocol.next view op answer).promoted = false)
    (hpending : (activationProtocol.next view op answer).pending = some ids)
    (hrow : (s'.versions.seen i).get? k = some row)
    (hactive : activeOf row = some (requests i).workflowId) : k ∈ ids := by
  have hasked := (h.held i).asked view hview
  cases heffect with
  | idle hnext =>
    rw [hnext] at hpromoted hpending
    exact h.pending hview hpromoted hpending hrow hactive
  | found =>
    cases hpending
    have hmem := List.mem_filter.mpr ⟨(Table.get?_eq_some_iff.mp hrow).1,
      isActiveOf_of_owned hrequest (h.owned.seen hrow) (hasked ▸ hactive)⟩
    exact List.mem_map.mpr ⟨row, hmem, Table.key_of_get? hrow⟩
  | @missed id rest hrest hmissed =>
    obtain rfl : rest = ids := by simpa [activationProtocol, hrest] using hpending
    rcases List.mem_cons.mp (h.pending hview hpromoted hrest hrow hactive) with rfl | hmem
    · have htrue := isActiveOf_of_owned hrequest (h.owned.seen hrow) (hasked ▸ hactive)
      simp [hmissed row hrow] at htrue
    · exact hmem
  | @archived id rest old hrest _ _ hold =>
    obtain rfl : rest = ids := by simpa [activationProtocol, hrest] using hpending
    have hid : (Publishing.archived old).id = id :=
      (id_archived old).trans (Table.key_of_get? hold)
    have hne : (Publishing.archived old).id ≠ k := by
      rintro rfl
      rw [get?_seen_of_written (written_write _ _ rfl) rfl] at hrow
      cases hrow
      simp [activeOf, Publishing.archived] at hactive
    rw [get?_seen_write_of_ne _ _ _ hne] at hrow
    rcases List.mem_cons.mp (h.pending hview hpromoted hrest hrow hactive) with rfl | hmem
    · exact absurd hid hne
    · exact hmem
  | promoted => cases hpromoted
  | pointed htrue => exact absurd (htrue.symm.trans hpromoted) (by decide)
  | commit => cases hpending

/-- What others do brings no active version of the workflow of a call. -/
lemma Apart.seen_of_other (hstep : ActivationStep requests w event w') {j : ℕ}
    (hview : w.view j = some view) (hview' : w'.view j = some view)
    (hother : ∀ op answer, event ≠ .perform j op answer) {k : String} {row : WorkflowVersionRow}
    (hrow : (w'.shared.versions.seen j).get? k = some row)
    (hactive : activeOf row = some (requests j).workflowId) :
    (w.shared.versions.seen j).get? k = some row := by
  cases hstep with
  | start => exact hrow
  | @perform i _ op answer _ _ hi hok _ hperform =>
    have hij : j ≠ i := by
      rintro rfl
      exact hother op answer rfl
    have heffect := effect_of_perform hok hperform
    refine (heffect.keeps hij).1.seen hrow fun hcommitted => ?_
    rcases heffect.committed_cases hcommitted with hold | ⟨written, hwritten, howner, rfl⟩
    · exact hold
    · obtain ⟨_, -, hof, -⟩ := (h.held i).versions hwritten howner
      have hsame := (activeOf_eq_some_iff.mp hactive).2
      exact absurd (h.alone hview hi (hsame.symm.trans hof)) hij
  | @ret i _ _ | @fail i _ _ | @crash i _ =>
    have hij : j ≠ i := by
      rintro rfl
      simp at hview'
    exact (keeps_rollback hij).seen hrow fun hcommitted => hcommitted
  | other hchange =>
    exact (keeps_of_change hchange j).1.seen hrow fun hcommitted =>
      committed_of_change hchange hcommitted (activeOf_eq_some_iff.mp hactive).1

lemma Apart.step (hrequests : ∀ i, (requests i).organizationId = owner (requests i).workflowId)
    (hstep : ActivationStep requests w event w')
    (hstart : ∀ i j, event = .start i () → w.view j ≠ none →
      (requests j).workflowId ≠ (requests i).workflowId)
    (hcreate : ∀ id organizationId workflowId definition,
      event = .other (.createVersion id organizationId workflowId definition) →
      organizationId = owner workflowId) : Apart requests owner w' where
  held := held_step h.held hstep
  owned := by
    cases hstep with
    | start => exact h.owned
    | perform _ _ hok _ hperform => exact (effect_of_perform hok hperform).owned h.owned
    | ret | fail | crash => exact h.owned.rollback _
    | other hchange =>
      rcases (change_cases hchange).1 with heq | ⟨_, _, _, _, rfl, hinsert⟩
      · exact heq ▸ h.owned
      · exact h.owned.insertNow (hcreate _ _ _ _ rfl) hinsert
  alone {i j v v'} hi hj hsame := by
    have hbefore : ∀ {j v}, w'.view j = some v → w.view j ≠ none ∨ event = .start j () := by
      intro j v hj
      rcases hstep.view_cases hj with ⟨hold, -⟩ | ⟨_, rfl, -⟩ | ⟨_, _, _, -, hperf, -⟩
      · exact .inl (by simp [hold])
      · exact .inr rfl
      · exact .inl (by simp [hperf.view])
    rcases hbefore hi with hold | rfl
    · rcases hbefore hj with hold' | rfl
      · obtain ⟨_, hold⟩ := Option.ne_none_iff_exists'.mp hold
        obtain ⟨_, hold'⟩ := Option.ne_none_iff_exists'.mp hold'
        exact h.alone hold hold' hsame
      · exact absurd hsame (hstart j i rfl hold)
    · rcases hbefore hj with hold' | hevent
      · exact absurd hsame.symm (hstart i j rfl hold')
      · cases hevent
        rfl
  pending {j v ids k row} hj hpromoted hpending hrow hactive := by
    rcases hstep.view_cases hj with ⟨hold, hother⟩ | ⟨_, rfl, rfl⟩ | ⟨_, _, t, -, hperf, rfl⟩
    · exact h.pending hold hpromoted hpending (h.seen_of_other hstep hold hj hother hrow hactive)
        hactive
    · cases hpending
    · obtain ⟨refusal, hperform⟩ := hperf.perform
      have hrequest := (h.held j).asked t hperf.view ▸ hrequests j
      exact h.pending_own hperf.view hrequest (effect_of_perform hperf.ok hperform) hpromoted
        hpending hrow hactive

end

variable {clock : ℕ} {versions : Table WorkflowVersionRow WorkflowVersionRow.id}
  {workflows : Table WorkflowRow WorkflowRow.id} {c : ActivationCrew}

/-- Calls that do not overlap have no rivals. -/
lemma guarded_of_apart (hrequests : ∀ i, (requests i).organizationId = owner (requests i).workflowId)
    (hversions : ∀ row ∈ versions.rows, Owned owner row)
    (hrun : Run (ApartStep requests owner) (.idle ⟨clock, .settled versions, .settled workflows⟩)
      events c) :
    Run (CrewStep.Guarded (activations requests) Unrivalled)
      (.idle ⟨clock, .settled versions, .settled workflows⟩) events c := by
  refine (hrun.mono_invariant (fun c => ∃ w, c.Seen activationProtocol (fun _ _ => True)
    (fun _ _ => True) w ∧ Apart requests owner w) (fun _ => True) ?_ ?_ fun _ _ => trivial).1
  · rintro c event c' ⟨w, hseen, h⟩ - hstep
    obtain ⟨w', hview, hseen'⟩ := hstep.step.viewStep (fun _ _ => proper_activateVersion)
      (fun _ _ _ _ => trivial) hseen
    refine ⟨⟨hstep.step, hseen.shared ▸ ?_⟩, w', hseen', h.step hrequests hview ?_ hstep.owned⟩
    · cases hview with
      | perform _ hi hok _ _ => exact h.unrivalled hi hok
      | _ => trivial
    · intro i j hevent hj
      exact hstep.apart i j hevent fun hidle => hj (hseen.idle j hidle)
  · refine ⟨_, Crew.seen_idle, ?_, ⟨fun hrow => ?_, by rintro _ _ ⟨⟩⟩, by rintro _ _ _ _ ⟨⟩,
      by rintro _ _ _ _ _ ⟨⟩⟩
    · exact fun i => heldBy_of_none (by rintro _ ⟨⟩) (by rintro _ _ ⟨⟩) (by rintro _ _ ⟨⟩)
        (by rintro _ ⟨⟩)
    · exact hversions _ (Table.get?_eq_some_iff.mp hrow).1

end Apart

/-- **A workflow has at most one active version, and points to it**, in whatever is committed in a
run in which no version is published while another version of the workflow is active or about to
become so.  Every run is like that in which calls for one workflow do not overlap. -/
theorem one_active_version (requests : ℕ → ActivationRequest) (clock : ℕ)
    (versions : Table WorkflowVersionRow WorkflowVersionRow.id)
    (workflows : Table WorkflowRow WorkflowRow.id)
    (hpoints : Data.Points ⟨clock, .settled versions, .settled workflows⟩)
    (events : List ActivationEvent) (c : ActivationCrew) :
    (Run (CrewStep.Guarded (activations requests) Unrivalled)
        (.idle ⟨clock, .settled versions, .settled workflows⟩) events c →
      (∀ id id' row row', c.shared.versions.committed.get? id = some row →
        c.shared.versions.committed.get? id' = some row' → row.status = .active →
        row'.status = .active → row.workflowId = row'.workflowId → id = id') ∧
      c.shared.Points) ∧
    ∀ owner : String → String,
      (∀ i, (requests i).organizationId = owner (requests i).workflowId) →
      (∀ row ∈ versions.rows, Owned owner row) →
      Run (ApartStep requests owner) (.idle ⟨clock, .settled versions, .settled workflows⟩)
        events c →
      Run (CrewStep.Guarded (activations requests) Unrivalled)
        (.idle ⟨clock, .settled versions, .settled workflows⟩) events c := by
  refine ⟨fun hrun => ?_, fun owner hrequests hversions => guarded_of_apart hrequests hversions⟩
  obtain ⟨w, hw, hseen⟩ := CrewStep.Guarded.invariant (fun _ _ => proper_activateVersion)
    (fun _ w => Sound requests w) (sound_idle hpoints)
    (fun _ _ _ _ h hstep hguard => h.step hstep hguard) Crew.seen_idle hrun fun _ _ _ _ => trivial
  have hpoints : c.shared.Points := hseen.shared ▸ hw.points
  exact ⟨fun _ _ _ _ => hpoints.unique, hpoints⟩

/-! ## Two calls for one workflow -/

/-- A workflow with an active version and two drafts. -/
def trialVersions : Table WorkflowVersionRow WorkflowVersionRow.id where
  rows := [⟨"v0", "org", "workflow", .active, some 0, ⟨none, .webhookTrigger, [], none⟩⟩,
    newVersion "v1" "org" "workflow" ⟨none, .webhookTrigger, [], none⟩,
    newVersion "v2" "org" "workflow" ⟨none, .webhookTrigger, [], none⟩]
  nodup := by decide

def trialWorkflows : Table WorkflowRow WorkflowRow.id :=
  ⟨[⟨"workflow", "org", .active, some "v0"⟩], by simp⟩

def trialData : Data := ⟨0, .settled trialVersions, .settled trialWorkflows⟩

/-- The first call publishes the first draft, the second one the second. -/
def trialRequests (i : ℕ) : ActivationRequest := ⟨"org", "workflow", if i = 0 then "v1" else "v2"⟩

lemma points_trialData : trialData.Points := by
  intro id row hrow hactive
  obtain ⟨hmem, rfl⟩ := Table.get?_eq_some_iff.mp hrow
  simp only [trialData, TxTable.settled, trialVersions, List.mem_cons, List.not_mem_nil,
    or_false] at hmem
  rcases hmem with rfl | rfl | rfl
  · exact ⟨_, rfl, rfl⟩
  · cases hactive
  · cases hactive

/-- The status of a version that is committed. -/
def Data.status? (s : Data) (id : String) : Option WorkflowVersionStatus :=
  (s.versions.committed.get? id).map (·.status)

/-- Only the first two calls are for the workflow. -/
def turnRequests (i : ℕ) : ActivationRequest :=
  if i < 2 then trialRequests i else ⟨"org", "other", "v3"⟩

/-- One of the first two calls starts when neither is under way; nothing is created. -/
def inTurn (c : ActivationCrew) : ActivationEvent → Bool
  | .start i () => decide (i < 2) && (c.active 0).isNone && (c.active 1).isNone
  | .other _ => false
  | _ => true

lemma apartStep_of_inTurn {c c' : ActivationCrew}
    (hstep : CrewStep (activations turnRequests) c event c') (hturn : inTurn c event = true) :
    ApartStep turnRequests (fun _ => "org") c event c' := by
  refine ⟨hstep, ?_, fun _ _ _ _ hevent => by simp [hevent, inTurn] at hturn⟩
  rintro i j rfl hj
  simp only [inTurn, Bool.and_eq_true, decide_eq_true_eq, Option.isNone_iff_eq_none] at hturn
  obtain ⟨⟨hi, hzero⟩, hone⟩ := hturn
  have hj' : ¬ j < 2 := by
    intro hlt
    obtain rfl | rfl : j = 0 ∨ j = 1 := by omega
    · exact hj hzero
    · exact hj hone
  simp [turnRequests, hi, hj', trialRequests]

/-- The second call begins after the first one has committed: its version is the active one. -/
theorem one_active_version_in_turn :
    ∃ events c, Run (ApartStep turnRequests fun _ => "org") (.idle trialData) events c ∧
      c.shared.status? "v1" = some .archived ∧ c.shared.status? "v2" = some .active ∧
      c.shared.Points := by
  have hscript : (script (actIf (Crew.act (activations turnRequests)) fun c event =>
      inTurn c event = true) (.idle trialData)
      ([.start 0 ()] ++ goes 0 8 ++ [.start 1 ()] ++ goes 1 8)).any (fun done =>
        done.2.shared.status? "v1" = some .archived ∧ done.2.shared.status? "v2" = some .active) := by
    decide +kernel
  obtain ⟨events, c, hrun, hlast⟩ := Program.exists_run _ (fun c action event c' hact => by
    obtain ⟨hact, hturn⟩ := Option.filter_eq_some_iff.mp hact
    exact apartStep_of_inTurn (Crew.step_of_act hact) (of_decide_eq_true hturn)) hscript
  obtain ⟨hunique, hapart⟩ := one_active_version turnRequests 0 trialVersions trialWorkflows
    points_trialData events c
  have hguarded := hapart (fun _ => "org") (fun i => ?_) (fun row hrow => ?_) hrun
  · exact ⟨events, c, hrun, hlast.1, hlast.2, (hunique hguarded).2⟩
  · unfold turnRequests
    split_ifs <;> rfl
  · simp only [trialVersions, List.mem_cons, List.not_mem_nil, or_false] at hrow
    rcases hrow with rfl | rfl | rfl <;> rfl

/-- The second call has found the active version before the first one commits: it does not archive
the version that the first one has published. -/
theorem two_active_versions :
    ∃ events c, Run (CrewStep (activations trialRequests)) (.idle trialData) events c ∧
      c.shared.status? "v1" = some .active ∧ c.shared.status? "v2" = some .active := by
  have hscript : (script (Crew.act (activations trialRequests)) (.idle trialData)
      ([.start 0 (), .start 1 ()] ++ goes 0 6 ++ goes 1 3 ++ goes 0 1 ++ goes 1 4)).any (fun done =>
        done.2.shared.status? "v1" = some .active ∧ done.2.shared.status? "v2" = some .active) := by
    decide +kernel
  obtain ⟨events, c, hrun, hlast⟩ := Crew.exists_free_run hscript
  exact ⟨events, c, hrun, hlast⟩

end Flowmind.Publishing
