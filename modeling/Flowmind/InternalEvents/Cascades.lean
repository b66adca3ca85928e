import Flowmind.InternalEvents.Deliveries
import Mathlib.Data.Finset.Prod

/-!
# Cascades of events

An execution that an event has caused causes further events, and these further executions.  The
chain that all of them belong to is limited in depth and in number.

* `cascades_bounded` — an event in the name of an execution that an event has caused, directly or
  through subworkflows, belongs to the chain of that event and is one level deeper; so an event
  leads to a bounded number of triggered executions.  This holds as long as no approval is asked for
  in the name of an execution that an event has caused.
* `approval_leaves_chain` — such a request begins a chain of its own.
* `chain_counter_exact` — a chain counts its events, and only those that are stored.
-/

namespace Flowmind.InternalEvents

open Program Store
open CrewAction (goes)

variable {settings : DispatchSettings} {limits : Limits} {w w' : DispatchViews}
  {event : DispatchEvent} {events : List DispatchEvent} {s s' : Data} {id : String}

/-! ## What causes what -/

/-- An event has caused an execution: through a trigger, or as the cause of its parent. -/
inductive Data.CausedBy (s : Data) (eventId : String) : String → Prop where
  | trigger {id : String} {row : CausedExecution} {delivery : DeliveryId}
      (hrow : s.executions.get? id = some row) (hdelivery : row.eventDeliveryId = some delivery)
      (hevent : delivery.internalEventId = eventId) : CausedBy s eventId id
  | child {id parentId : String} {row : CausedExecution} (hrow : s.executions.get? id = some row)
      (hparent : row.parentExecutionId = some parentId) (hcause : CausedBy s eventId parentId) :
      CausedBy s eventId id

/-- The events that an event leads to: those in the name of the executions that it causes, and what
these lead to. -/
inductive Data.LeadsTo (s : Data) (eventId : String) : String → Prop where
  | refl : LeadsTo s eventId eventId
  | step {middle id executionId : String} {row : EventRow} (hmiddle : LeadsTo s eventId middle)
      (hcause : s.CausedBy middle executionId) (hrow : s.events.get? id = some row)
      (hexecution : row.executionId = some executionId) : LeadsTo s eventId id

/-- The triggers that were found to match an event. -/
def matchedTriggers (events : List DispatchEvent) : Finset String :=
  (events.flatMap fun
    | .perform _ (.recordMatches _ _ triggerIds) (.ok _) => triggerIds
    | _ => []).toFinset

/-- No approval is asked for in the name of an execution that an event has caused. -/
def Attributed (s : Data) : DispatchEvent → Prop
  | .other (.emitFor .approvalHandler executionId _ _ _ _) =>
    ∀ row ∈ s.executions.get? executionId, row.eventRootId = none
  | _ => True

instance (s : Data) : DecidablePred (Attributed s) := fun event => by
  unfold Attributed
  split <;> infer_instance

/-! ## New executions -/

/-- The event that an execution says to be caused by. -/
def Data.Triggered (s : Data) (row : CausedExecution) (delivery : DeliveryId) : Prop :=
  ∃ cause, s.events.get? delivery.internalEventId = some cause ∧
    row.eventRootId = some cause.rootEventId ∧ row.eventDepth = cause.depth

lemma Effect.triggered (heffect : Effect settings limits w event s') {row : CausedExecution}
    {delivery : DeliveryId} (h : w.shared.Triggered row delivery) : s'.Triggered row delivery := by
  obtain ⟨cause, hcause, hroot, hdepth⟩ := h
  obtain ⟨cause', hcause', hsame⟩ := heffect.event_kept hcause
  exact ⟨cause', hcause', hsame.root ▸ hroot, hsame.depth ▸ hdepth⟩

/-- A dispatcher creates an execution that says what has caused it. -/
lemma Informed.triggered {i : ℕ} {new : Materialization} (hinformed : Informed w)
    (heffect : Effect settings limits w (.perform i (.createExecution new) (.ok id)) s') :
    w.shared.Triggered (new.execution id) new.delivery := by
  cases heffect with
  | idle _ _ _ _ hcreated => exact absurd rfl (hcreated _ _ _)
  | @created _ _ _ view hview hok =>
    obtain ⟨read, hread, hof⟩ := hok
    obtain ⟨cause, hcause, hsame⟩ := hinformed.read i view read hview hread
    refine ⟨cause, hof.delivery ▸ hcause, ?_, ?_⟩
    · rw [hsame.root, ← hof.root]
      rfl
    · rw [hsame.depth, ← hof.depth]
      rfl

/-! ## New events -/

/-- At most one event is new, and it is counted in its chain. -/
structure Data.Grows (limits : Limits) (s s' : Data) (new : Option EventRow) : Prop where
  events : ∀ id row', s'.events.get? id = some row' →
    (∃ row, s.events.get? id = some row ∧ row.Same row') ∨ new = some row'
  rootCount : ∀ root, s'.rootCount root =
    s.rootCount root + if new.map (·.rootEventId) = some root then 1 else 0
  chainCount : ∀ root, s'.chainCount root =
    s.chainCount root + if new.map (·.rootEventId) = some root then 1 else 0
  bounded : ∀ row ∈ new, s'.chainCount row.rootEventId ≤ limits.maxChainEvents

lemma Data.grows_of_eq (hevents : s'.events = s.events) (hchains : s'.chains = s.chains) :
    s.Grows limits s' none where
  events id row' hrow' := .inl ⟨row', hevents ▸ hrow', .refl row'⟩
  rootCount root := by
    simp [Data.rootCount, hevents]
  chainCount root := by
    simp [Data.chainCount, hchains]
  bounded := by
    simp

lemma Data.grows_updateEvent {where_ : EventRow → Bool} (set : EventRow → EventRow)
    (hset : ∀ row, (set row).id = row.id) (hsame : ∀ row : EventRow, row.Same (set row)) :
    s.Grows limits (s.updateEvent where_ set hset) none where
  events id row' hrow' := by
    rw [Data.get?_updateEvent, Option.map_eq_some_iff] at hrow'
    obtain ⟨row, hrow, rfl⟩ := hrow'
    refine .inl ⟨row, hrow, ?_⟩
    split_ifs
    · exact hsame row
    · exact .refl row
  rootCount root := by
    have hroot : ∀ row : EventRow, (set row).rootEventId = row.rootEventId :=
      fun row => (hsame row).root
    simp [Data.rootCount, Data.updateEvent, Table.count_updateMany, hroot]
  chainCount root := by
    simp [Data.chainCount, Data.updateEvent]
  bounded := by
    simp

/-- The other tables do not matter. -/
lemma Data.Grows.of_tables {s₁ : Data} {new : Option EventRow} (h : s.Grows limits s₁ new)
    (hevents : s'.events = s₁.events) (hchains : s'.chains = s₁.chains) :
    s.Grows limits s' new where
  events := hevents ▸ h.events
  rootCount root := by
    rw [← h.rootCount, Data.rootCount, hevents, Data.rootCount]
  chainCount root := by
    rw [← h.chainCount, Data.chainCount, hchains, Data.chainCount]
  bounded row hrow := by
    rw [Data.chainCount, hchains]
    exact h.bounded row hrow

variable {row : EventRow}

lemma Data.Grows.adds {s₁ : Data} (h : s.Grows limits s₁ none) (hadds : s₁.Adds limits s' row) :
    s.Grows limits s' (some row) where
  events id row' hrow' := by
    rw [hadds.events] at hrow'
    split_ifs at hrow'
    · exact .inr hrow'
    · exact (h.events id row' hrow').imp_right fun hnone => by simp at hnone
  rootCount root := by
    simp [hadds.rootCount, h.rootCount]
  chainCount root := by
    simp [hadds.chainCount, h.chainCount]
  bounded := by
    rintro _ ⟨⟩
    exact hadds.bounded

/-- An event in the name of an execution belongs to its chain. -/
def Data.Named (s : Data) (row : EventRow) : Prop :=
  ∀ executionId, row.executionId = some executionId →
    ∃ execution, s.executions.get? executionId = some execution ∧
      ∀ root, execution.eventRootId = some root →
        row.rootEventId = root ∧ row.depth = execution.eventDepth + 1

lemma EventRow.IsDiagnostic.named (h : row.IsDiagnostic) : s.Named row := by
  intro executionId hexecution
  simp [h.execution] at hexecution

/-- What is emitted in the name of an execution belongs to its chain, unless an approval is asked
for. -/
lemma EventRow.IsOf.named {emitter : Emitter} {execution : CausedExecution} {type : EventType}
    {data : Json} (h : row.IsOf limits (emitter.emission execution type data))
    (hexecution : s.executions.get? execution.id = some execution)
    (hemitter : emitter = .approvalHandler → execution.eventRootId = none) : s.Named row := by
  intro executionId hid
  obtain rfl : execution.id = executionId := Option.some.inj (h.execution.symm.trans hid)
  refine ⟨execution, hexecution, fun root hroot => ?_⟩
  have hcausality : emitter.causality execution = execution.causality := by
    cases emitter with
    | approvalHandler => simp [hemitter rfl] at hroot
    | _ => rfl
  have hof : (emitter.emission execution type data).causality =
      ⟨some root, execution.eventCausationId, execution.eventDepth⟩ := by
    simp [Emitter.emission, hcausality, CausedExecution.causality, hroot]
  refine ⟨h.root root (by rw [hof]), ?_⟩
  rw [h.depth, Emission.depth, hof]
  rfl

/-- **Every new event** is counted in its chain, and belongs to the chain of the execution in whose
name it is emitted. -/
lemma Effect.grows (heffect : Effect settings limits w event s')
    (hguard : Attributed w.shared event) :
    ∃ new, w.shared.Grows limits s' new ∧
      ∀ row ∈ new, row.depth ≤ limits.maxDepth ∧ w.shared.Named row := by
  have hrefl : w.shared.Grows limits w.shared none := Data.grows_of_eq rfl rfl
  cases heffect with
  | idle hevents hchains => exact ⟨none, Data.grows_of_eq hevents hchains, by simp⟩
  | claim =>
    exact ⟨none, Data.grows_updateEvent (EventRow.claimed _ _ _) (fun _ => rfl)
      (fun _ => ⟨rfl, rfl, rfl, rfl⟩), by simp⟩
  | @matched _ id =>
    have hgrows : w.shared.Grows limits (w.shared.updateEvent (fun row => decide (row.id = id))
        (EventRow.matched w.shared.clock)) none :=
      Data.grows_updateEvent (EventRow.matched _) (fun _ => rfl) fun _ => ⟨rfl, rfl, rfl, rfl⟩
    exact ⟨none, hgrows.of_tables rfl rfl, by simp⟩
  | skipped | created | adopted => exact ⟨none, Data.grows_of_eq rfl rfl, by simp⟩
  | finished =>
    exact ⟨none, Data.grows_updateEvent EventRow.processed (fun _ => rfl)
      (fun _ => ⟨rfl, rfl, rfl, rfl⟩), by simp⟩
  | @failed _ id dead next _ _ _ _ _ hfail =>
    have hgrows : w.shared.Grows limits (w.shared.updateEvent (fun row => decide (row.id = id))
        (EventRow.failed dead next)) none :=
      Data.grows_updateEvent (EventRow.failed dead next) (fun _ => rfl)
        fun _ => ⟨rfl, rfl, rfl, rfl⟩
    rcases Data.failEvent_cases limits hfail with rfl | ⟨row, hadds, hrow⟩
    · exact ⟨none, hgrows, by simp⟩
    · refine ⟨some row, hgrows.adds hadds, ?_⟩
      rintro _ ⟨⟩
      exact ⟨by simp [hrow.depth], hrow.named⟩
  | plain hadd | child _ hadd =>
    obtain ⟨-, ⟨⟩⟩ := Option.dite_none_right_eq_some.mp hadd
    exact ⟨none, Data.grows_of_eq rfl rfl, by simp⟩
  | @emitted emitter executionId _ _ _ _ execution row _ hexecution hadds hrow =>
    refine ⟨some row, hrefl.adds hadds, ?_⟩
    rintro _ ⟨⟩
    obtain rfl : execution.id = executionId := Table.key_of_get? hexecution
    rcases hrow with hrow | hrow
    · refine ⟨hrow.depth_le, hrow.named hexecution ?_⟩
      rintro rfl
      exact hguard execution hexecution
    · exact ⟨by simp [hrow.depth], hrow.named⟩
  | @requested _ row _ hadds _ hdepth hexecution =>
    refine ⟨some row, hrefl.adds hadds, ?_⟩
    rintro _ ⟨⟩
    refine ⟨hdepth, fun executionId hid => ?_⟩
    obtain ⟨execution, hget, hnone⟩ := hexecution executionId hid
    exact ⟨execution, hget, fun root hroot => by simp [hnone] at hroot⟩

lemma Effect.named (heffect : Effect settings limits w event s') {row' : EventRow}
    (hsame : row.Same row') (h : w.shared.Named row) : s'.Named row' := by
  intro executionId hid
  obtain ⟨execution, hexecution, hroot⟩ := h executionId (hsame.execution ▸ hid)
  refine ⟨execution, heffect.execution_kept hexecution, fun root hsome => ?_⟩
  rw [hsame.root, hsame.depth]
  exact hroot root hsome

/-! ## The invariant -/

/-- What executions and events say about their causes is so, and chains are counted. -/
structure Chained (limits : Limits) (s : Data) : Prop where
  trigger : ∀ id row delivery, s.executions.get? id = some row →
    row.eventDeliveryId = some delivery → s.Triggered row delivery
  child : ∀ id row parentId, s.executions.get? id = some row →
    row.parentExecutionId = some parentId →
    ∃ parent, s.executions.get? parentId = some parent ∧
      row.eventRootId = parent.eventRootId ∧ row.eventDepth = parent.eventDepth
  named : ∀ id row, s.events.get? id = some row → s.Named row
  depth : ∀ id row, s.events.get? id = some row → row.depth ≤ limits.maxDepth
  counted : ∀ root, s.rootCount root = s.chainCount root
  bounded : ∀ root, s.chainCount root ≤ limits.maxChainEvents

/-- The database in which nothing has happened yet. -/
def Data.initial (clock : ℕ) (triggers : Table EventTriggerRow EventTriggerRow.id)
    (workflows : Table WorkflowRow WorkflowRow.id)
    (versions : Table WorkflowVersionRow WorkflowVersionRow.id) : Data :=
  ⟨clock, .empty, .empty, .empty, .empty, triggers, workflows, versions⟩

lemma chained_initial {clock : ℕ} {triggers : Table EventTriggerRow EventTriggerRow.id}
    {workflows : Table WorkflowRow WorkflowRow.id}
    {versions : Table WorkflowVersionRow WorkflowVersionRow.id} :
    Chained limits (.initial clock triggers workflows versions) where
  trigger := by
    rintro id row delivery ⟨⟩
  child := by
    rintro id row parentId ⟨⟩
  named := by
    rintro id row ⟨⟩
  depth := by
    rintro id row ⟨⟩
  counted root := rfl
  bounded root := Nat.zero_le _

lemma Chained.step (h : Chained limits w.shared) (hinformed : Informed w)
    (hstep : DispatchStep settings limits w event w') (hguard : Attributed w.shared event) :
    Chained limits w'.shared := by
  have heffect := effect_of_step hstep
  obtain ⟨new, hgrows, hnew⟩ := heffect.grows hguard
  refine ⟨fun id row delivery hrow hdelivery => ?_, fun id row parentId hrow hparent => ?_,
    fun id row hrow => ?_, fun id row hrow => ?_, fun root => ?_, fun root => ?_⟩
  · rcases heffect.execution_cases hrow with
      hold | ⟨i, new, rfl, rfl⟩ | ⟨_, _, _, rfl⟩ | ⟨_, _, _, _, -, rfl⟩
    · exact heffect.triggered (h.trigger id row delivery hold hdelivery)
    · cases hdelivery
      exact heffect.triggered (hinformed.triggered heffect)
    · cases hdelivery
    · cases hdelivery
  · rcases heffect.execution_cases hrow with
      hold | ⟨i, new, rfl, rfl⟩ | ⟨_, _, _, rfl⟩ | ⟨parentId, parent, _, _, hget, rfl⟩
    · obtain ⟨parent, hget, hsame⟩ := h.child id row parentId hold hparent
      exact ⟨parent, heffect.execution_kept hget, hsame⟩
    · cases hparent
    · cases hparent
    · cases hparent
      obtain rfl : parent.id = parentId := Table.key_of_get? hget
      exact ⟨parent, heffect.execution_kept hget, rfl, rfl⟩
  · rcases hgrows.events id row hrow with ⟨old, hold, hsame⟩ | rfl
    · exact heffect.named hsame (h.named id old hold)
    · exact heffect.named (.refl row) (hnew row rfl).2
  · rcases hgrows.events id row hrow with ⟨old, hold, hsame⟩ | rfl
    · exact hsame.depth ▸ h.depth id old hold
    · exact (hnew row rfl).1
  · rw [hgrows.rootCount, hgrows.chainCount, h.counted]
  · by_cases hroot : new.map (·.rootEventId) = some root
    · obtain ⟨row, hrow, rfl⟩ := Option.map_eq_some_iff.mp hroot
      exact hgrows.bounded row hrow
    · rw [hgrows.chainCount, if_neg hroot]
      exact h.bounded root

lemma Data.delivery_of_updateDelivery {updated delivery : DeliveryId} {where_ : DeliveryRow → Bool}
    {set : DeliveryRow → DeliveryRow} (hset : ∀ row, (set row).id = row.id) {row' : DeliveryRow}
    (h : (s.updateDelivery updated where_ set hset).deliveries.get? delivery = some row') :
    ∃ row, s.deliveries.get? delivery = some row := by
  rw [Data.get?_updateDelivery, Option.map_eq_some_iff] at h
  obtain ⟨row, hrow, -⟩ := h
  exact ⟨row, hrow⟩

/-- A step records no delivery but those of triggers that were found to match. -/
lemma Effect.delivery_cases (heffect : Effect settings limits w event s') {delivery : DeliveryId}
    {row' : DeliveryRow} (hrow' : s'.deliveries.get? delivery = some row') :
    (∃ row, w.shared.deliveries.get? delivery = some row) ∨
      delivery.triggerId ∈ matchedTriggers [event] := by
  cases heffect with
  | idle _ _ hdeliveries => exact .inl ⟨row', hdeliveries ▸ hrow'⟩
  | claim | finished => exact .inl ⟨row', hrow'⟩
  | failed hfail => exact .inl ⟨row', (Data.executions_of_failEvent hfail).2 ▸ hrow'⟩
  | plain hadd | child _ hadd =>
    exact .inl ⟨row', Data.deliveries_of_addExecution hadd ▸ hrow'⟩
  | emitted _ hadds | requested hadds => exact .inl ⟨row', hadds.deliveries ▸ hrow'⟩
  | skipped | adopted => exact .inl (Data.delivery_of_updateDelivery _ hrow')
  | created _ _ _ _ hfresh =>
    rw [Data.get?_deliveries_createExecution, Option.map_eq_some_iff] at hrow'
    obtain ⟨row, hrow, -⟩ := hrow'
    exact .inl ⟨row, hrow⟩
  | @matched i id organizationId triggerIds =>
    have hadded := get?_addDeliveries organizationId id delivery triggerIds w.shared.deliveries
    change (addDeliveries organizationId id triggerIds w.shared.deliveries).get? delivery = _
      at hrow'
    rw [hadded] at hrow'
    cases hold : w.shared.deliveries.get? delivery with
    | some row => exact .inl ⟨row, rfl⟩
    | none =>
      simp only [hold, Option.none_or, Option.ite_none_right_eq_some] at hrow'
      exact .inr (by simpa [matchedTriggers] using hrow'.1.2)

/-- Every delivery is one to a trigger that was found to match. -/
def Matched (events : List DispatchEvent) (s : Data) : Prop :=
  ∀ delivery row, s.deliveries.get? delivery = some row →
    delivery.triggerId ∈ matchedTriggers events

lemma Matched.step (h : Matched events w.shared) (heffect : Effect settings limits w event s') :
    Matched (events ++ [event]) s' := by
  intro delivery row' hrow'
  have happend : matchedTriggers (events ++ [event]) =
      matchedTriggers events ∪ matchedTriggers [event] := by
    simp [matchedTriggers]
  rw [happend, Finset.mem_union]
  refine (heffect.delivery_cases hrow').imp_left ?_
  rintro ⟨row, hrow⟩
  exact h delivery row hrow

/-! ## Chains -/

variable {eventId executionId : String}

section

variable (h : Chained limits s)
include h

/-- An execution that an event has caused belongs to the chain of the event. -/
lemma Chained.caused (hcaused : s.CausedBy eventId executionId) :
    ∃ cause execution, s.events.get? eventId = some cause ∧
      s.executions.get? executionId = some execution ∧
      execution.eventRootId = some cause.rootEventId ∧ execution.eventDepth = cause.depth := by
  induction hcaused with
  | @trigger id row delivery hrow hdelivery hevent =>
    obtain ⟨cause, hcause, hsame⟩ := h.trigger id row delivery hrow hdelivery
    exact ⟨cause, row, hevent ▸ hcause, hrow, hsame⟩
  | @child id parentId row hrow hparent _ ih =>
    obtain ⟨cause, execution, hcause, hexecution, hroot, hdepth⟩ := ih
    obtain ⟨parent, hget, hsame⟩ := h.child id row parentId hrow hparent
    obtain rfl : parent = execution := Option.some.inj (hget.symm.trans hexecution)
    exact ⟨cause, row, hcause, hrow, hsame.1.trans hroot, hsame.2.trans hdepth⟩

/-- An event in the name of such an execution belongs to that chain, one level deeper. -/
lemma Chained.deeper (hcaused : s.CausedBy eventId executionId)
    (hrow : s.events.get? id = some row) (hexecution : row.executionId = some executionId) :
    ∃ cause, s.events.get? eventId = some cause ∧ row.rootEventId = cause.rootEventId ∧
      row.depth = cause.depth + 1 := by
  obtain ⟨cause, execution, hcause, hget, hroot, hdepth⟩ := h.caused hcaused
  obtain ⟨execution', hget', hnamed⟩ := h.named id row hrow executionId hexecution
  obtain rfl : execution' = execution := Option.some.inj (hget'.symm.trans hget)
  have hrow := hnamed cause.rootEventId hroot
  exact ⟨cause, hcause, hrow.1, hdepth ▸ hrow.2⟩

/-- All events that an event leads to are of one chain. -/
lemma Chained.root_of_leadsTo {cause : EventRow} (hcause : s.events.get? eventId = some cause)
    (hleads : s.LeadsTo eventId id) (hrow : s.events.get? id = some row) :
    row.rootEventId = cause.rootEventId := by
  induction hleads generalizing row with
  | refl =>
    obtain rfl : row = cause := Option.some.inj (hrow.symm.trans hcause)
    rfl
  | step _ hcaused hget hexecution ih =>
    cases hget.symm.trans hrow
    obtain ⟨middle, hmiddle, hroot, -⟩ := h.deeper hcaused hget hexecution
    exact hroot.trans (ih hmiddle)

/-- If an event leads to one that is there, it is there itself. -/
lemma Chained.exists_of_leadsTo (hleads : s.LeadsTo eventId id)
    (hrow : s.events.get? id = some row) : ∃ cause, s.events.get? eventId = some cause := by
  induction hleads generalizing row with
  | refl => exact ⟨row, hrow⟩
  | step _ hcaused hget hexecution ih =>
    obtain ⟨middle, hmiddle, -⟩ := h.deeper hcaused hget hexecution
    exact ih hmiddle

end

/-- An event triggers an execution, itself or through an event that it leads to. -/
def Data.Triggers (s : Data) (eventId executionId : String) : Prop :=
  ∃ row delivery, s.executions.get? executionId = some row ∧
    row.eventDeliveryId = some delivery ∧ s.LeadsTo eventId delivery.internalEventId

/-- The events of a root. -/
def Data.chainEvents (s : Data) (root : String) : Finset String :=
  ((s.events.rows.filter fun row => decide (row.rootEventId = root)).map (·.id)).toFinset

lemma Data.card_chainEvents_le (s : Data) (root : String) :
    (s.chainEvents root).card ≤ s.rootCount root := by
  refine (List.toFinset_card_le _).trans (le_of_eq ?_)
  rw [List.length_map, Data.rootCount, Table.count, List.countP_eq_length_filter]

lemma Data.mem_chainEvents (hrow : s.events.get? id = some row) :
    id ∈ s.chainEvents row.rootEventId := by
  obtain ⟨hmem, rfl⟩ := Table.get?_eq_some_iff.mp hrow
  rw [Data.chainEvents, List.mem_toFinset, List.mem_map]
  exact ⟨row, List.mem_filter.mpr ⟨hmem, by simp⟩, rfl⟩

section

variable (h : Chained limits s) (hdelivered : Delivered events s) (hmatched : Matched events s)
include h hdelivered hmatched

/-- An execution that an event triggers has a delivery of an event of the chain to a trigger that
was found to match. -/
lemma Chained.delivery_of_triggers (htriggers : s.Triggers eventId executionId) :
    ∃ cause delivery, s.events.get? eventId = some cause ∧
      s.pointer delivery = some executionId ∧
      (delivery.internalEventId, delivery.triggerId) ∈
        s.chainEvents cause.rootEventId ×ˢ matchedTriggers events := by
  obtain ⟨row, delivery, hrow, hdelivery, hleads⟩ := htriggers
  have hpointer := hdelivered.points executionId row delivery hrow hdelivery
  obtain ⟨found, hfound, -⟩ := Option.bind_eq_some_iff.mp hpointer
  obtain ⟨middle, hmiddle, -⟩ := h.trigger executionId row delivery hrow hdelivery
  obtain ⟨cause, hcause⟩ := h.exists_of_leadsTo hleads hmiddle
  refine ⟨cause, delivery, hcause, hpointer, Finset.mem_product.mpr ⟨?_, ?_⟩⟩
  · rw [← h.root_of_leadsTo hcause hleads hmiddle]
    exact Data.mem_chainEvents hmiddle
  · exact hmatched delivery found hfound

/-- **The number of executions that an event triggers is bounded.** -/
lemma Chained.card_le {ids : Finset String}
    (hids : ∀ executionId ∈ ids, s.Triggers eventId executionId) :
    ids.card ≤ limits.maxChainEvents * (matchedTriggers events).card := by
  rcases ids.eq_empty_or_nonempty with rfl | ⟨first, hfirst⟩
  · simp
  obtain ⟨cause, -, hcause, -⟩ := h.delivery_of_triggers hdelivered hmatched (hids first hfirst)
  -- Different executions have different deliveries, and there are not many of these in the chain.
  have hsub : ids.card ≤
      (s.chainEvents cause.rootEventId ×ˢ matchedTriggers events).card := by
    refine Finset.card_le_card_of_surjOn
      (fun pair => (s.pointer ⟨pair.1, pair.2⟩).getD "") fun executionId hmem => ?_
    obtain ⟨cause', delivery, hcause', hpointer, hdelivery⟩ :=
      h.delivery_of_triggers hdelivered hmatched (hids executionId hmem)
    obtain rfl : cause' = cause := Option.some.inj (hcause'.symm.trans hcause)
    refine ⟨_, hdelivery, ?_⟩
    simp [hpointer]
  refine hsub.trans ?_
  rw [Finset.card_product]
  refine Nat.mul_le_mul_right _ ((s.card_chainEvents_le _).trans ?_)
  rw [h.counted]
  exact h.bounded _

end

/-- **Cascades of events are bounded**, in every run in which no approval is asked for in the name
of an execution that an event has caused: an event in the name of an execution that an event has
caused, itself or through subworkflows, has the same root and is one level deeper; no event is
deeper than the limit; and the executions that an event triggers are at most as many as a chain may
have events, for every trigger that was found to match. -/
theorem cascades_bounded (settings : DispatchSettings) (limits : Limits) (clock : ℕ)
    (triggers : Table EventTriggerRow EventTriggerRow.id)
    (workflows : Table WorkflowRow WorkflowRow.id)
    (versions : Table WorkflowVersionRow WorkflowVersionRow.id) (events : List DispatchEvent)
    (c : Crew ℕ Data DispatchStatement DispatchAnswer DispatchError Unit)
    (hrun : Run (CrewStep.Guarded (dispatchers settings limits) Attributed)
      (.idle (.initial clock triggers workflows versions)) events c) :
    (∀ eventId executionId id row, c.shared.CausedBy eventId executionId →
      c.shared.events.get? id = some row → row.executionId = some executionId →
      ∃ cause, c.shared.events.get? eventId = some cause ∧
        row.rootEventId = cause.rootEventId ∧ row.depth = cause.depth + 1) ∧
    (∀ id row, c.shared.events.get? id = some row → row.depth ≤ limits.maxDepth) ∧
    ∀ eventId (ids : Finset String),
      (∀ executionId ∈ ids, c.shared.Triggers eventId executionId) →
        ids.card ≤ limits.maxChainEvents * (matchedTriggers events).card := by
  obtain ⟨w, ⟨hchained, hdelivered, hmatched, -⟩, hseen⟩ := dispatch_invariant
    (fun events w => Chained limits w.shared ∧ Delivered events w.shared ∧
      Matched events w.shared ∧ Informed w)
    ⟨chained_initial, delivered_nil rfl (by rintro _ _ ⟨⟩), by rintro _ _ ⟨⟩, informed_idle⟩
    (fun _ _ _ _ ⟨hchained, hdelivered, hmatched, hinformed⟩ hstep hguard =>
      ⟨hchained.step hinformed hstep hguard, hdelivered.step hinformed hstep,
        hmatched.step (effect_of_step hstep), hinformed.step hstep⟩) Crew.seen_idle hrun
  have hshared : c.shared = w.shared := hseen.shared.symm
  rw [hshared]
  exact ⟨fun eventId executionId id row hcaused hrow hexecution =>
    hchained.deeper hcaused hrow hexecution, hchained.depth,
    fun eventId ids hids => hchained.card_le hdelivered hmatched hids⟩

/-! ## Chains are counted exactly -/

/-- A transaction that emits an event, with the ids that it draws. -/
structure EmitAttempt where
  emission : Emission
  id : String
  diagnosticId : String

namespace EmitAttempt

def run? (limits : Limits) (s : Data) (attempt : EmitAttempt) : Option Data :=
  emit limits s attempt.emission attempt.id attempt.diagnosticId

/-- The root that the event is to have. -/
def rootEventId (attempt : EmitAttempt) : String :=
  attempt.emission.causality.rootEventId.getD attempt.id

/-- The row of the event. -/
def stored (clock : ℕ) (attempt : EmitAttempt) : EventRow :=
  newEvent attempt.id attempt.emission.organizationId attempt.emission.type attempt.emission.data clock
    attempt.rootEventId attempt.emission.causality.causationId attempt.emission.depth
    attempt.emission.executionId

/-- The event would be too deep, or its chain is not there or full. -/
def Refused (limits : Limits) (s : Data) (attempt : EmitAttempt) : Prop :=
  limits.maxDepth < attempt.emission.depth ∨ attempt.rootEventId ≠ attempt.id ∧
    s.chains.count (ChainRow.isOpen attempt.rootEventId attempt.emission.organizationId
      limits.maxChainEvents) = 0

/-- The ids that are drawn are not in use. -/
structure Fresh (s : Data) (attempt : EmitAttempt) : Prop where
  event : s.events.get? attempt.id = none
  chain : s.chains.get? attempt.id = none
  diagnostic : s.events.get? attempt.diagnosticId = none
  diagnosticChain : s.chains.get? attempt.diagnosticId = none

end EmitAttempt

/-- The transactions one after the other; one that fails leaves nothing. -/
def Data.emitAll (limits : Limits) (s : Data) (attempts : List EmitAttempt) : Data :=
  attempts.foldl (fun s attempt => (attempt.run? limits s).getD s) s

/-- Nothing is stored but an event about events, with a new root of its own; the chains that there
are keep their counters. -/
structure Data.Reports (limits : Limits) (s s' : Data) (row : EventRow) : Prop where
  adds : s.Adds limits s' row
  type : row.eventType = .eventChainDepthExceeded
  root : row.rootEventId = row.id
  fresh : s.chains.get? row.id = none
  chains : ∀ root chain, s.chains.get? root = some chain → s'.chains.get? root = some chain

/-- Every chain has the number of its events. -/
structure Counted (limits : Limits) (s : Data) : Prop where
  depth : ∀ id row, s.events.get? id = some row → row.depth ≤ limits.maxDepth
  counted : ∀ root, s.rootCount root = s.chainCount root
  bounded : ∀ root, s.chainCount root ≤ limits.maxChainEvents

lemma Counted.adds (h : Counted limits s) (hadds : s.Adds limits s' row)
    (hdepth : row.depth ≤ limits.maxDepth) : Counted limits s' where
  depth id row' hrow' := by
    rw [hadds.events] at hrow'
    split_ifs at hrow'
    · cases hrow'
      exact hdepth
    · exact h.depth id row' hrow'
  counted root := by rw [hadds.rootCount, hadds.chainCount, h.counted]
  bounded root := by
    by_cases hroot : row.rootEventId = root
    · exact hroot ▸ hadds.bounded
    · rw [hadds.chainCount, if_neg hroot]
      exact h.bounded root

lemma Counted.emitAll (h : Counted limits s) (attempts : List EmitAttempt) :
    Counted limits (s.emitAll limits attempts) := by
  induction attempts generalizing s with
  | nil => exact h
  | cons attempt attempts ih =>
    refine @ih ((attempt.run? limits s).getD s) ?_
    cases hemit : attempt.run? limits s with
    | none => exact h
    | some s' =>
      obtain ⟨row, hadds, hrow | hrow⟩ := adds_of_emit hemit
      · exact h.adds hadds hrow.depth_le
      · exact h.adds hadds (by simp [hrow.depth])

/-- The chain of an event that is there. -/
lemma Counted.chain (h : Counted limits s) (hrow : s.events.get? id = some row) :
    ∃ chain, s.chains.get? row.rootEventId = some chain ∧
      chain.eventCount = s.rootCount row.rootEventId ∧
      chain.eventCount ≤ limits.maxChainEvents := by
  have hpos : 0 < s.rootCount row.rootEventId :=
    List.countP_pos_iff.mpr ⟨row, (Table.get?_eq_some_iff.mp hrow).1, by simp⟩
  have hcounted := h.counted row.rootEventId
  have hbounded := h.bounded row.rootEventId
  cases hchain : s.chains.get? row.rootEventId with
  | none => simp [Data.chainCount, hchain, hcounted] at hpos
  | some chain =>
    simp only [Data.chainCount, hchain] at hcounted hbounded
    exact ⟨chain, rfl, hcounted.symm, hbounded⟩

lemma EmitAttempt.Refused.effect {attempt : EmitAttempt} (h : attempt.Refused limits s)
    (hrun : attempt.run? limits s = some s') : ∃ row, s.Reports limits s' row := by
  obtain ⟨reason, hsuppress⟩ : ∃ reason,
      s.suppress attempt.emission attempt.diagnosticId attempt.rootEventId reason = some s' := by
    rw [run?, emit] at hrun
    split_ifs at hrun with hdepth hroot hopen
    · exact ⟨_, hrun⟩
    · exact absurd h (not_or.mpr ⟨hdepth, fun hrefused => hrefused.1 hroot⟩)
    · exact ⟨_, hrun⟩
    · exact absurd h (not_or.mpr ⟨hdepth, fun hrefused => hopen hrefused.2⟩)
  obtain ⟨s₁, hchain, hadd⟩ := Option.bind_eq_some_iff.mp hsuppress
  have hadds : s.Adds limits s' _ := adds_of_addChain hchain hadd
  obtain ⟨hfresh, ⟨⟩⟩ := Option.dite_none_right_eq_some.mp hchain
  refine ⟨_, hadds, rfl, rfl, hfresh, fun root chain hget => ?_⟩
  obtain ⟨-, ⟨⟩⟩ := Option.dite_none_right_eq_some.mp hadd
  have hne : attempt.diagnosticId ≠ root := by
    rintro rfl
    simp [hfresh] at hget
  exact (Table.get?_insert _ _ hfresh root).trans ((if_neg hne).trans hget)

section Fresh

variable {attempt : EmitAttempt} (h : attempt.Fresh s)
include h

lemma EmitAttempt.Fresh.suppress (rootEventId : String) (reason : SuppressReason) :
    ∃ s', s.suppress attempt.emission attempt.diagnosticId rootEventId reason = some s' := by
  simp [Data.suppress, Data.addDiagnostic, Data.addChain, Data.addEvent, newEvent, h.diagnostic,
    h.diagnosticChain]

/-- The event can be stored wherever the events are as before. -/
lemma EmitAttempt.Fresh.addEvent {s₁ : Data} (hevents : s₁.events = s.events) (clock : ℕ) :
    ∃ s', s₁.addEvent (attempt.stored clock) = some s' := by
  simp [Data.addEvent, hevents, EmitAttempt.stored, newEvent, h.event]

/-- A transaction whose ids are new does not fail, and stores the event unless it is refused. -/
lemma EmitAttempt.Fresh.run (limits : Limits) : ∃ s', attempt.run? limits s = some s' ∧
    (¬ attempt.Refused limits s → s.Adds limits s' (attempt.stored s.clock)) := by
  rw [run?, emit]
  split_ifs with hdepth hroot hopen
  · obtain ⟨s', hs'⟩ := h.suppress attempt.rootEventId .depth
    exact ⟨s', hs', fun hnot => absurd (.inl hdepth) hnot⟩
  · obtain ⟨s₁, hchain⟩ : ∃ s₁, s.addChain attempt.rootEventId attempt.emission.organizationId =
        some s₁ := by
      simp [Data.addChain, show attempt.rootEventId = attempt.id from hroot, h.chain]
    have hsame : s₁.events = s.events ∧ s₁.clock = s.clock := by
      obtain ⟨-, ⟨⟩⟩ := Option.dite_none_right_eq_some.mp hchain
      exact ⟨rfl, rfl⟩
    obtain ⟨s', hs'⟩ := h.addEvent hsame.1 s.clock
    exact ⟨s', Option.bind_eq_some_iff.mpr ⟨s₁, hchain, hs'⟩, fun _ => adds_of_addChain hchain hs'⟩
  · obtain ⟨s', hs'⟩ := h.suppress attempt.rootEventId .count
    exact ⟨s', hs', fun hnot => absurd (.inr ⟨hroot, hopen⟩) hnot⟩
  · have hevents : (s.countEvent attempt.rootEventId attempt.emission.organizationId
      limits.maxChainEvents).events = s.events := rfl
    obtain ⟨s', hs'⟩ := h.addEvent hevents s.clock
    exact ⟨s', hs', fun _ => adds_of_countEvent hopen hs'⟩

end Fresh

/-- **The counter of a chain is exact**, after any transactions that emit events in any order: it is
the number of events with that root and within the limit, and no event is deeper than the limit.  An
emission that draws new ids is stored and counted unless it is refused, and one that is refused stores
nothing but an event about it. -/
theorem chain_counter_exact (limits : Limits) (clock : ℕ)
    (triggers : Table EventTriggerRow EventTriggerRow.id)
    (workflows : Table WorkflowRow WorkflowRow.id)
    (versions : Table WorkflowVersionRow WorkflowVersionRow.id) (attempts : List EmitAttempt) :
    let s := (Data.initial clock triggers workflows versions).emitAll limits attempts
    (∀ id row, s.events.get? id = some row → row.depth ≤ limits.maxDepth ∧
      ∃ chain, s.chains.get? row.rootEventId = some chain ∧
        chain.eventCount = s.rootCount row.rootEventId ∧
        chain.eventCount ≤ limits.maxChainEvents) ∧
    ∀ attempt : EmitAttempt,
      (attempt.Fresh s → ∃ s', attempt.run? limits s = some s' ∧
        (¬ attempt.Refused limits s → s.Adds limits s' (attempt.stored s.clock))) ∧
      ∀ s', attempt.run? limits s = some s' → attempt.Refused limits s →
        ∃ row, s.Reports limits s' row := by
  have hcounted : Counted limits (.initial clock triggers workflows versions) :=
    ⟨by rintro _ _ ⟨⟩, fun _ => rfl, fun _ => Nat.zero_le _⟩
  refine ⟨fun id row hrow => ?_, fun attempt => ⟨fun hfresh => hfresh.run limits,
    fun s' hrun hrefused => hrefused.effect hrun⟩⟩
  exact ⟨(hcounted.emitAll attempts).depth id row hrow, (hcounted.emitAll attempts).chain hrow⟩

/-- A data store step emits an event of a chain. -/
def chainAttempt (root : Option String) (id : String) : EmitAttempt where
  emission := ⟨"org", .dataStoreRecordCreated, .obj [], some "execution", ⟨root, root, 0⟩⟩
  id := id
  diagnosticId := "diagnostic"

/-- Chains of two events. -/
def pairLimits : Limits := ⟨5, 2, by decide⟩

def emitted (attempts : List EmitAttempt) : Data :=
  (Data.initial 0 .empty .empty .empty).emitAll pairLimits attempts

/-- A second event of a chain is stored and counted, a third one is refused, and an event about it is
stored in its place. -/
theorem chain_counter_exact_of_pair :
    (∃ s', (chainAttempt (some "first") "second").run? pairLimits
        (emitted [chainAttempt none "first"]) = some s' ∧
      (emitted [chainAttempt none "first"]).Adds pairLimits s'
        ((chainAttempt (some "first") "second").stored 0)) ∧
    (emitted [chainAttempt none "first", chainAttempt (some "first") "second"]).chainCount "first" = 2 ∧
    ∃ s' row, (chainAttempt (some "first") "third").run? pairLimits
        (emitted [chainAttempt none "first", chainAttempt (some "first") "second"]) = some s' ∧
      (emitted [chainAttempt none "first", chainAttempt (some "first") "second"]).Reports pairLimits s'
        row := by
  have hpair := chain_counter_exact pairLimits 0 .empty .empty .empty
  refine ⟨?_, by decide, ?_⟩
  · obtain ⟨s', hrun, hadds⟩ := ((hpair [chainAttempt none "first"]).2
      (chainAttempt (some "first") "second")).1 ⟨by rfl, by rfl, by rfl, by rfl⟩
    exact ⟨s', hrun, hadds (by unfold EmitAttempt.Refused; decide)⟩
  · obtain ⟨hstores, hreports⟩ := (hpair [chainAttempt none "first",
      chainAttempt (some "first") "second"]).2 (chainAttempt (some "first") "third")
    obtain ⟨s', hrun, -⟩ := hstores ⟨by rfl, by rfl, by rfl, by rfl⟩
    obtain ⟨row, hrow⟩ := hreports s' hrun (by unfold EmitAttempt.Refused; decide)
    exact ⟨s', row, hrun, hrow⟩

/-! ## A workflow that triggers itself -/

/-- A workflow that is triggered by events of a type. -/
def selfTriggering (type : EventType) : Data :=
  .initial 0 ⟨[⟨"trigger", "org", "workflow", type, true, none, none⟩], by simp⟩ trialData.workflows
    trialData.versions

/-- Something is emitted in the name of an execution. -/
def emits (emitter : Emitter) (type : EventType) (executionId id : String) : TrialAction :=
  .other (.emitFor emitter executionId type (.obj []) id "diagnostic")

/-- An event triggers an execution of the workflow, in whose name there is an event again. -/
def secondRound (emitter : Emitter) (type : EventType) : List TrialAction :=
  [.other (.createExecution "first" "org" "workflow" (some "version")),
    emits emitter type "first" "event"] ++ claims 0 ++ goes 0 5 ++
    goes 0 1 { id := "run" } ++ goes 0 3 ++ [emits emitter type "run" "second"]

/-- What is left of the second round. -/
abbrev Data.SecondRound (s : Data) (root : String) (depth : ℕ) : Prop :=
  (∃ cause ∈ s.events.get? "event", cause.rootEventId = "event") ∧
  (∃ execution ∈ s.executions.get? "run", execution.eventDeliveryId = some ⟨"event", "trigger"⟩) ∧
  ∃ row ∈ s.events.get? "second", row.executionId = some "run" ∧ row.rootEventId = root ∧
    row.depth = depth

/-- If executions are completed, the second event is one level deeper. -/
theorem cascades_bounded_second_round :
    ∃ events c, Run (CrewStep.Guarded (dispatchers trialSettings trialLimits) Attributed)
        (.idle (selfTriggering .executionCompleted)) events c ∧
      ∃ cause row, c.shared.events.get? "event" = some cause ∧
        c.shared.events.get? "second" = some row ∧ row.rootEventId = cause.rootEventId ∧
        row.depth = cause.depth + 1 := by
  have hscript : (script (Crew.actIf (dispatchers trialSettings trialLimits) Attributed)
      (.idle (selfTriggering .executionCompleted))
      (secondRound .transitionTerminal .executionCompleted)).any
        (fun done => done.2.shared.SecondRound "event" 1) := by decide +kernel
  obtain ⟨events, c, hrun, -, ⟨execution, hexecution, hdelivery⟩, row, hrow, howner, -⟩ :=
    Crew.exists_run hscript
  obtain ⟨cause, hcause, hsame⟩ := (cascades_bounded trialSettings trialLimits 0 _ _ _ events c
    hrun).1 "event" "run" "second" row (.trigger hexecution hdelivery rfl) hrow howner
  exact ⟨events, c, hrun, cause, row, hcause, hrow, hsame⟩

/-- If approvals are asked for, the second event begins a chain of its own. -/
theorem approval_leaves_chain :
    ∃ events c, Run (CrewStep (dispatchers trialSettings trialLimits))
        (.idle (selfTriggering .approvalRequested)) events c ∧
      ∃ cause row, c.shared.CausedBy "event" "run" ∧
        c.shared.events.get? "event" = some cause ∧ c.shared.events.get? "second" = some row ∧
        row.executionId = some "run" ∧ row.rootEventId ≠ cause.rootEventId ∧ row.depth = 0 := by
  have hscript : (script (Crew.act (dispatchers trialSettings trialLimits))
      (.idle (selfTriggering .approvalRequested))
      (secondRound .approvalHandler .approvalRequested)).any
        (fun done => done.2.shared.SecondRound "second" 0) := by decide +kernel
  obtain ⟨events, c, hrun, ⟨cause, hcause, hroot⟩, ⟨execution, hexecution, hdelivery⟩, row, hrow,
    howner, hsecond, hdepth⟩ := Crew.exists_free_run hscript
  refine ⟨events, c, hrun, cause, row, .trigger hexecution hdelivery rfl, hcause, hrow, howner, ?_,
    hdepth⟩
  simp [hroot, hsecond]

end Flowmind.InternalEvents
