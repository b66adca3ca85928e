import Flowmind.InternalEvents.DispatchProtocol

/-!
# One execution for a delivery

Any number of dispatchers may be at the same event at once.  Whatever they do, at most one execution
is created for an event and a trigger, the delivery points to it, and no execution is created for
an event about events.

* `executionsCreated` — the executions that were created for a delivery in a run.
* `one_execution_per_delivery` — the result.
-/

namespace Flowmind.InternalEvents

open Program Store
open CrewAction (goes)

variable {settings : DispatchSettings} {limits : Limits} {w w' : DispatchViews}
  {event : DispatchEvent} {events : List DispatchEvent} {s s' : Data}

/-- The execution that a step creates for a delivery. -/
def createdFor (delivery : DeliveryId) : DispatchEvent → Option String
  | .perform _ (.createExecution new) (.ok (id : String)) =>
    if new.delivery = delivery then some id else none
  | _ => none

/-- The executions that a run creates for a delivery. -/
def executionsCreated (events : List DispatchEvent) (delivery : DeliveryId) : List String :=
  events.filterMap (createdFor delivery)

/-- The execution that a delivery points to. -/
def DeliveryRow.execution? (row : DeliveryRow) : Option String :=
  if row.status = .materialized then row.executionId else none

/-! ## The table of deliveries -/

lemma get?_addDeliveries (organizationId internalEventId : String) (delivery : DeliveryId)
    (triggerIds : List String) (deliveries : Table DeliveryRow DeliveryRow.id) :
    (addDeliveries organizationId internalEventId triggerIds deliveries).get? delivery =
      (deliveries.get? delivery).or
        (if delivery.internalEventId = internalEventId ∧ delivery.triggerId ∈ triggerIds then
          some (newDelivery organizationId internalEventId delivery.triggerId) else none) := by
  induction triggerIds generalizing deliveries with
  | nil => simp [addDeliveries]
  | cons triggerId triggerIds ih =>
    have hkey : (newDelivery organizationId internalEventId triggerId).id = delivery ↔
        delivery.internalEventId = internalEventId ∧ delivery.triggerId = triggerId := by
      cases delivery
      simp [newDelivery, eq_comm]
    change (addDeliveries organizationId internalEventId triggerIds _).get? delivery = _
    rw [ih, Table.get?_insertNew]
    simp only [hkey]
    cases deliveries.get? delivery with
    | some row => simp
    | none =>
      by_cases hevent : delivery.internalEventId = internalEventId
      · by_cases htrigger : delivery.triggerId = triggerId
        · simp [hevent, htrigger]
        · simp [htrigger]
      · simp [hevent]

variable {delivery : DeliveryId} {set : DeliveryRow → DeliveryRow}

lemma Data.get?_updateDelivery {where_ : DeliveryRow → Bool} (hset : ∀ row, (set row).id = row.id)
    (other : DeliveryId) :
    (s.updateDelivery delivery where_ set hset).deliveries.get? other =
      (s.deliveries.get? other).map fun row =>
        if other = delivery ∧ where_ row = true then set row else row := by
  simp only [Data.updateDelivery, Table.get?_updateMany]
  cases hrow : s.deliveries.get? other with
  | none => rfl
  | some row =>
    obtain rfl : row.id = other := Table.key_of_get? hrow
    simp

/-! ## The invariant -/

/-- The execution that the delivery of an event to a trigger points to. -/
def Data.pointer (s : Data) (delivery : DeliveryId) : Option String :=
  (s.deliveries.get? delivery).bind (·.execution?)

/-- The event of a delivery is not one about events. -/
def Data.Genuine (s : Data) (delivery : DeliveryId) : Prop :=
  ∃ row, s.events.get? delivery.internalEventId = some row ∧ row.eventType.diagnostic = false

/-- Executions and deliveries point to each other, and the run has created just these. -/
structure Delivered (events : List DispatchEvent) (s : Data) : Prop where
  points : ∀ id row delivery, s.executions.get? id = some row →
    row.eventDeliveryId = some delivery → s.pointer delivery = some id
  backs : ∀ delivery id, s.pointer delivery = some id →
    ∃ row, s.executions.get? id = some row ∧ row.eventDeliveryId = some delivery
  solid : ∀ delivery row, s.deliveries.get? delivery = some row → row.status = .materialized →
    row.executionId.isSome
  genuine : ∀ delivery row, s.deliveries.get? delivery = some row → s.Genuine delivery
  created : ∀ delivery, executionsCreated events delivery = (s.pointer delivery).toList

lemma Effect.genuine (h : Effect settings limits w event s')
    (hgenuine : w.shared.Genuine delivery) : s'.Genuine delivery := by
  obtain ⟨row, hrow, htype⟩ := hgenuine
  obtain ⟨row', hrow', hsame⟩ := h.event_kept hrow
  exact ⟨row', hrow', hsame.type ▸ htype⟩

section

variable (h : Delivered events w.shared) (heffect : Effect settings limits w event s')
  (hcreated : ∀ delivery, createdFor delivery event = none)
include h heffect hcreated

/-- A step that creates no execution for a delivery: no delivery points elsewhere. -/
lemma Delivered.keep (hpointer : ∀ delivery, s'.pointer delivery = w.shared.pointer delivery)
    (hsolid : ∀ delivery row, s'.deliveries.get? delivery = some row → row.status = .materialized →
      row.executionId.isSome)
    (hgenuine : ∀ delivery row, s'.deliveries.get? delivery = some row → w.shared.Genuine delivery) :
    Delivered (events ++ [event]) s' where
  points id row' delivery hrow' hdelivery := by
    rw [hpointer]
    rcases heffect.execution_cases hrow' with
      hrow | ⟨i, new, rfl, rfl⟩ | ⟨_, _, _, rfl⟩ | ⟨_, _, _, _, -, rfl⟩
    · exact h.points id row' delivery hrow hdelivery
    · have hnone := hcreated new.delivery
      simp [createdFor] at hnone
    · cases hdelivery
    · cases hdelivery
  backs delivery id hid := by
    rw [hpointer] at hid
    obtain ⟨row, hrow, hdelivery⟩ := h.backs delivery id hid
    exact ⟨row, heffect.execution_kept hrow, hdelivery⟩
  solid := hsolid
  genuine delivery row hrow := heffect.genuine (hgenuine delivery row hrow)
  created delivery := by
    rw [hpointer, ← h.created delivery]
    simp [executionsCreated, hcreated]

/-- The same, if the deliveries are as before. -/
lemma Delivered.quiet (hdeliveries : s'.deliveries = w.shared.deliveries) :
    Delivered (events ++ [event]) s' :=
  h.keep heffect hcreated (fun delivery => by rw [Data.pointer, hdeliveries, Data.pointer])
    (hdeliveries ▸ h.solid) (hdeliveries ▸ h.genuine)

end

lemma createdFor_eq_none (hevent : ∀ i new id, event ≠ .perform i (.createExecution new) (.ok id))
    (delivery : DeliveryId) : createdFor delivery event = none := by
  unfold createdFor
  split
  · exact absurd rfl (hevent _ _ _)
  · rfl

/-- New deliveries are pending, and of an event that is not about events. -/
lemma Delivered.matched {id organizationId : String} {triggerIds : List String}
    (h : Delivered events w.shared)
    (heffect : Effect settings limits w event
      (w.shared.recordMatches id organizationId triggerIds))
    (hcreated : ∀ delivery, createdFor delivery event = none)
    (hevent : triggerIds ≠ [] →
      ∃ row, w.shared.events.get? id = some row ∧ row.eventType.diagnostic = false) :
    Delivered (events ++ [event]) (w.shared.recordMatches id organizationId triggerIds) := by
  have hget : ∀ delivery row,
      (w.shared.recordMatches id organizationId triggerIds).deliveries.get? delivery = some row →
      w.shared.deliveries.get? delivery = some row ∨
        (w.shared.deliveries.get? delivery = none ∧ delivery.internalEventId = id ∧
          triggerIds ≠ [] ∧ row.status = .pending) := by
    intro delivery row hrow
    have hadded := get?_addDeliveries organizationId id delivery triggerIds w.shared.deliveries
    rw [show (w.shared.recordMatches id organizationId triggerIds).deliveries = addDeliveries
      organizationId id triggerIds w.shared.deliveries from rfl, hadded] at hrow
    cases hold : w.shared.deliveries.get? delivery with
    | some old => simpa [hold] using hrow
    | none =>
      simp only [hold, Option.none_or, Option.ite_none_right_eq_some, Option.some.injEq] at hrow
      obtain ⟨⟨hid, hmem⟩, rfl⟩ := hrow
      exact .inr ⟨rfl, hid, List.ne_nil_of_mem hmem, rfl⟩
  refine h.keep heffect hcreated (fun delivery => ?_) (fun delivery row hrow => ?_)
    fun delivery row hrow => ?_
  · have hadded := get?_addDeliveries organizationId id delivery triggerIds w.shared.deliveries
    change ((addDeliveries organizationId id triggerIds w.shared.deliveries).get? delivery).bind _ =
      (w.shared.deliveries.get? delivery).bind _
    rw [hadded]
    cases hold : w.shared.deliveries.get? delivery with
    | some old => simp
    | none =>
      split_ifs <;> rfl
  · intro hstatus
    rcases hget delivery row hrow with hrow | ⟨-, -, -, hpending⟩
    · exact h.solid delivery row hrow hstatus
    · simp [hpending] at hstatus
  · rcases hget delivery row hrow with hrow | ⟨-, rfl, hne, -⟩
    · exact h.genuine delivery row hrow
    · exact hevent hne

/-- An update of a delivery that is pending, if it makes it point nowhere. -/
lemma Delivered.updatePending (h : Delivered events w.shared)
    (hset : ∀ row, (set row).id = row.id) (heffect : Effect settings limits w event
      (w.shared.updateDelivery delivery DeliveryRow.isPending set hset))
    (hcreated : ∀ delivery, createdFor delivery event = none)
    (hstatus : ∀ row, w.shared.deliveries.get? delivery = some row → row.isPending = true →
      (set row).status ≠ .materialized) :
    Delivered (events ++ [event])
      (w.shared.updateDelivery delivery DeliveryRow.isPending set hset) := by
  have hupdated : ∀ other row, w.shared.deliveries.get? other = some row →
      other = delivery ∧ row.isPending = true →
      row.execution? = none ∧ (set row).status ≠ .materialized := by
    rintro _ row hrow ⟨rfl, hpending⟩
    have hset := hstatus row hrow hpending
    simp only [DeliveryRow.isPending, decide_eq_true_eq] at hpending
    exact ⟨by simp [DeliveryRow.execution?, hpending], hset⟩
  refine h.keep heffect hcreated (fun other => ?_) (fun other row' hrow' => ?_)
    fun other row' hrow' => ?_
  · simp only [Data.pointer, Data.get?_updateDelivery hset]
    cases hrow : w.shared.deliveries.get? other with
    | none => rfl
    | some row =>
      simp only [Option.map_some, Option.bind_some]
      split_ifs with hwhere
      · obtain ⟨hnone, hne⟩ := hupdated other row hrow hwhere
        rw [hnone, DeliveryRow.execution?, if_neg hne]
      · rfl
  · rw [Data.get?_updateDelivery hset, Option.map_eq_some_iff] at hrow'
    obtain ⟨row, hrow, rfl⟩ := hrow'
    intro hmaterialized
    split_ifs at hmaterialized ⊢ with hwhere
    · exact absurd hmaterialized (hupdated other row hrow hwhere).2
    · exact h.solid other row hrow hmaterialized
  · rw [Data.get?_updateDelivery hset, Option.map_eq_some_iff] at hrow'
    obtain ⟨row, hrow, -⟩ := hrow'
    exact h.genuine other row hrow

variable {new : Materialization} {id : String}

lemma Data.get?_deliveries_createExecution
    (hfresh : s.executions.get? (new.execution id).id = none) (other : DeliveryId) :
    (s.createExecution new id hfresh).deliveries.get? other =
      (s.deliveries.get? other).map fun row =>
        if other = new.delivery then row.materialized id else row := by
  have hkey : ∀ row, (DeliveryRow.materialized id row).id = row.id := fun _ => rfl
  refine (Data.get?_updateDelivery hkey other).trans ?_
  simp

lemma Data.pointer_createExecution (hfresh : s.executions.get? (new.execution id).id = none)
    (hdelivery : ∃ row, s.deliveries.get? new.delivery = some row) (other : DeliveryId) :
    (s.createExecution new id hfresh).pointer other =
      if other = new.delivery then some id else s.pointer other := by
  rw [Data.pointer, Data.get?_deliveries_createExecution]
  by_cases hother : other = new.delivery
  · subst hother
    obtain ⟨row, hrow⟩ := hdelivery
    simp [hrow, DeliveryRow.execution?, DeliveryRow.materialized]
  · simp [hother, Data.pointer]

variable {i : ℕ}

/-- The first execution for a delivery. -/
lemma Delivered.createExecution (h : Delivered events w.shared)
    (hfresh : w.shared.executions.get? (new.execution id).id = none)
    (heffect : Effect settings limits w (.perform i (.createExecution new) (.ok id))
      (w.shared.createExecution new id hfresh))
    (hfirst : ∀ id row, w.shared.executions.get? id = some row →
      row.eventDeliveryId ≠ some new.delivery)
    (hdelivery : ∃ row, w.shared.deliveries.get? new.delivery = some row) :
    Delivered (events ++ [.perform i (.createExecution new) (.ok id)])
      (w.shared.createExecution new id hfresh) := by
  have hget := Data.get?_deliveries_createExecution hfresh
  have hpointer := Data.pointer_createExecution hfresh hdelivery
  -- So far the delivery points nowhere.
  have hnone : w.shared.pointer new.delivery = none := by
    by_contra hne
    obtain ⟨old, hold⟩ := Option.ne_none_iff_exists'.mp hne
    obtain ⟨row, hrow, heq⟩ := h.backs new.delivery old hold
    exact hfirst old row hrow heq
  refine ⟨fun id' row' delivery hrow' heq => ?_, fun delivery id' hid' => ?_,
    fun delivery row' hrow' hstatus => ?_, fun delivery row' hrow' => ?_, fun delivery => ?_⟩
  · rw [hpointer]
    rcases Table.insert_cases hfresh hrow' with ⟨rfl, rfl⟩ | hold
    · cases heq
      rw [if_pos rfl]
      rfl
    · have hother : delivery ≠ new.delivery := by
        rintro rfl
        exact hfirst id' row' hold heq
      rw [if_neg hother]
      exact h.points id' row' delivery hold heq
  · rw [hpointer] at hid'
    split_ifs at hid' with hother
    · cases hid'
      exact ⟨new.execution id, (Table.get?_insert _ _ hfresh id).trans (if_pos rfl), hother ▸ rfl⟩
    · obtain ⟨row, hrow, heq⟩ := h.backs delivery id' hid'
      exact ⟨row, heffect.execution_kept hrow, heq⟩
  · rw [hget, Option.map_eq_some_iff] at hrow'
    obtain ⟨row, hrow, rfl⟩ := hrow'
    split_ifs at hstatus ⊢
    · rfl
    · exact h.solid delivery row hrow hstatus
  · rw [hget, Option.map_eq_some_iff] at hrow'
    obtain ⟨row, hrow, -⟩ := hrow'
    exact heffect.genuine (h.genuine delivery row hrow)
  · rw [hpointer]
    have hcreated := h.created delivery
    simp only [executionsCreated, List.filterMap_append] at hcreated ⊢
    rw [hcreated]
    split_ifs with hother
    · subst hother
      simp [hnone, createdFor]
    · simp [createdFor, Ne.symm hother]

/-! ## All dispatchers -/

/-- What the dispatchers know is so. -/
structure Informed (w : DispatchViews) : Prop where
  read : ∀ i view row, w.view i = some view → view.event = some row →
    ∃ row', w.shared.events.get? row.id = some row' ∧ row.Same row'
  found : ∀ i view delivery id, w.view i = some view → view.found = some (delivery, id) →
    ∃ row, w.shared.executions.get? id = some row ∧ row.eventDeliveryId = some delivery

lemma EventRow.Same.trans {row row' row'' : EventRow} (h : row.Same row') (h' : row'.Same row'') :
    row.Same row'' where
  type := h'.type.trans h.type
  root := h'.root.trans h.root
  depth := h'.depth.trans h.depth
  execution := h'.execution.trans h.execution

variable {op : DispatchStatement} {answer : DispatchAnswer op} {view : DispatchView}

section

variable
  (hperf : ViewStep.Performs (dispatchers settings limits) dispatchProtocol w i op answer s' view)
include hperf

/-- What a dispatcher has read is there. -/
lemma read_of_performs {row : EventRow}
    (hrow : (dispatchProtocol.next view op answer).event = some row) :
    view.event = some row ∨ w.shared.events.get? row.id = some row := by
  obtain ⟨oracle, hperform⟩ := hperf.perform
  rcases DispatchStatement.perform_cases hperform with ⟨error, rfl, -⟩ | hsucceed
  · cases op with
    | claim => cases hrow
    | _ => exact .inl hrow
  · cases op with
    | findEvent id =>
      cases hsucceed
      have hget : w.shared.events.get? id = some row := hrow
      exact .inr (by rwa [Table.key_of_get? hget])
    | claim => cases hrow
    | findExecution delivery organizationId =>
      rcases answer with error | (_ | id) <;> exact .inl hrow
    | countPending id => rcases answer with error | count <;> exact .inl hrow
    | _ => exact .inl hrow

/-- An execution that a dispatcher has found is there. -/
lemma found_of_performs
    (hfound : (dispatchProtocol.next view op answer).found = some (delivery, id)) :
    view.found = some (delivery, id) ∨
      ∃ row, w.shared.executions.get? id = some row ∧ row.eventDeliveryId = some delivery := by
  obtain ⟨oracle, hperform⟩ := hperf.perform
  rcases DispatchStatement.perform_cases hperform with ⟨error, rfl, -⟩ | hsucceed
  · cases op with
    | claim => cases hfound
    | _ => exact .inl hfound
  · cases op with
    | findExecution delivery' organizationId =>
      cases hsucceed
      cases hfind : w.shared.executions.rows.find? fun row =>
          decide (row.eventDeliveryId = some delivery') &&
            decide (row.organizationId = organizationId) with
      | none =>
        rw [hfind] at hfound
        exact .inl hfound
      | some row =>
        rw [hfind] at hfound
        cases hfound
        have hrow := List.find?_some hfind
        simp only [Bool.and_eq_true, decide_eq_true_eq] at hrow
        exact .inr ⟨row, Table.get?_eq_some_iff.mpr ⟨List.mem_of_find?_eq_some hfind, rfl⟩,
          hrow.1⟩
    | claim => cases hfound
    | findEvent => rcases answer with error | row <;> first | exact .inl hfound | cases hfound
    | countPending id => rcases answer with error | count <;> exact .inl hfound
    | _ => exact .inl hfound

end

lemma Informed.step (h : Informed w) (hstep : DispatchStep settings limits w event w') :
    Informed w' where
  read i view row hview hrow := by
    have hsame : ∃ row', w.shared.events.get? row.id = some row' ∧ row.Same row' := by
      rcases hstep.view_cases hview with
        ⟨hview, -⟩ | ⟨_, -, rfl⟩ | ⟨op, answer, before, -, hperf, rfl⟩
      · exact h.read i view row hview hrow
      · cases hrow
      · rcases read_of_performs hperf hrow with hrow | hget
        · exact h.read i before row hperf.view hrow
        · exact ⟨row, hget, .refl row⟩
    obtain ⟨row', hrow', hsame⟩ := hsame
    obtain ⟨row'', hrow'', hsame'⟩ := (effect_of_step hstep).event_kept hrow'
    exact ⟨row'', hrow'', hsame.trans hsame'⟩
  found i view delivery id hview hfound := by
    have hthere : ∃ row, w.shared.executions.get? id = some row ∧
        row.eventDeliveryId = some delivery := by
      rcases hstep.view_cases hview with
        ⟨hview, -⟩ | ⟨_, -, rfl⟩ | ⟨op, answer, before, -, hperf, rfl⟩
      · exact h.found i view delivery id hview hfound
      · cases hfound
      · rcases found_of_performs hperf hfound with hfound | hrow
        · exact h.found i before delivery id hperf.view hfound
        · exact hrow
    obtain ⟨row, hrow, hdelivery⟩ := hthere
    exact ⟨row, (effect_of_step hstep).execution_kept hrow, hdelivery⟩

/-- A delivery with an execution is not pending. -/
lemma Delivered.not_pending (h : Delivered events s) {execution : CausedExecution}
    (hexecution : s.executions.get? id = some execution)
    (hdelivery : execution.eventDeliveryId = some delivery) {row : DeliveryRow}
    (hrow : s.deliveries.get? delivery = some row) : row.isPending = false := by
  have hpointer := h.points id execution delivery hexecution hdelivery
  simp only [Data.pointer, hrow, Option.bind_some, DeliveryRow.execution?,
    Option.ite_none_right_eq_some] at hpointer
  simp [DeliveryRow.isPending, hpointer.1]

lemma Delivered.step (h : Delivered events w.shared) (hinformed : Informed w)
    (hstep : DispatchStep settings limits w event w') :
    Delivered (events ++ [event]) w'.shared := by
  have heffect := effect_of_step hstep
  generalize w'.shared = s' at heffect
  have hall := heffect
  cases heffect with
  | idle _ _ hdeliveries _ hcreated =>
    exact h.quiet hall (createdFor_eq_none hcreated) hdeliveries
  | claim | finished => exact h.quiet hall (fun _ => rfl) rfl
  | failed hfail => exact h.quiet hall (fun _ => rfl) (Data.executions_of_failEvent hfail).2
  | plain hadd | child _ hadd =>
    exact h.quiet hall (fun _ => rfl) (Data.deliveries_of_addExecution hadd)
  | emitted _ hadds | requested hadds => exact h.quiet hall (fun _ => rfl) hadds.deliveries
  | skipped =>
    refine h.updatePending _ hall (fun _ => rfl) fun row _ _ => ?_
    simp [DeliveryRow.skipped]
  | @adopted i delivery executionId view hview hfound =>
    obtain ⟨execution, hexecution, hdelivery⟩ :=
      hinformed.found i view delivery executionId hview hfound
    refine h.updatePending _ hall (fun _ => rfl) fun row hrow hpending => ?_
    simp [h.not_pending hexecution hdelivery hrow] at hpending
  | @matched i id organizationId triggerIds view hview hok =>
    obtain ⟨row, hrow, rfl, hdiagnostic⟩ := hok
    refine h.matched hall (fun _ => rfl) fun hne => ?_
    obtain ⟨row', hrow', hsame⟩ := hinformed.read i view row hview hrow
    refine ⟨row', hrow', ?_⟩
    rw [hsame.type]
    exact Bool.eq_false_iff.mpr fun htrue => hne (hdiagnostic htrue)
  | created _ _ hfirst hdelivery hfresh => exact h.createExecution hfresh hall hfirst hdelivery

/-- Answers about events and deliveries are so. -/
lemma dispatchProtocol_rely {oracle : DispatchOracle}
    (h : (dispatchers settings limits).perform i oracle s op = some (answer, s')) :
    dispatchProtocol.rely op answer := by
  rcases DispatchStatement.perform_cases h with ⟨error, rfl, -⟩ | hsucceed
  · cases op <;> trivial
  · cases op with
    | findEvent id =>
      cases hsucceed
      intro row hrow
      exact Table.key_of_get? hrow
    | findPending id organizationId =>
      cases hsucceed
      intro delivery hmem
      obtain ⟨row, hrow, hload⟩ := List.mem_filterMap.mp hmem
      simp only [List.mem_filter, Bool.and_eq_true, decide_eq_true_eq] at hrow
      obtain ⟨trigger, -, hrest⟩ := Option.bind_eq_some_iff.mp hload
      obtain ⟨workflow, -, ⟨⟩⟩ := Option.bind_eq_some_iff.mp hrest
      exact hrow.2.1.1
    | _ => trivial

variable {c c' : Crew ℕ Data DispatchStatement DispatchAnswer DispatchError Unit}

/-- A crew of dispatchers and what is known of them. -/
abbrev DispatchSeen (c : Crew ℕ Data DispatchStatement DispatchAnswer DispatchError Unit)
    (w : DispatchViews) : Prop :=
  c.Seen dispatchProtocol (fun _ _ => True) (fun _ _ => True) w

variable {guard : Data → DispatchEvent → Prop}

/-- An invariant of what is known of the dispatchers holds after every run. -/
lemma dispatch_invariant (inv : List DispatchEvent → DispatchViews → Prop) (hinit : inv [] w)
    (hkeep : ∀ events w event w', inv events w → DispatchStep settings limits w event w' →
      guard w.shared event → inv (events ++ [event]) w') (hseen : DispatchSeen c w)
    (hrun : Run (CrewStep.Guarded (dispatchers settings limits) guard) c events c') :
    ∃ w' : DispatchViews, inv events w' ∧ DispatchSeen c' w' := by
  refine CrewStep.Guarded.invariant (fun _ _ => proper_runDispatch) inv hinit hkeep hseen hrun
    fun i op answer hmem => ?_
  obtain ⟨_, _, _, hperform⟩ := CrewStep.Guarded.performed hrun hmem
  exact dispatchProtocol_rely hperform

lemma informed_idle : Informed (.idle s) where
  read := by
    rintro i view row ⟨⟩
  found := by
    rintro i view delivery id ⟨⟩

section

variable (hdeliveries : s.deliveries = .empty)
  (hexecutions : ∀ id row, s.executions.get? id = some row → row.eventDeliveryId = none)
include hdeliveries hexecutions

/-- Before anything is delivered. -/
lemma delivered_nil : Delivered [] s where
  points id row delivery hrow hdelivery := by
    simp [hexecutions id row hrow] at hdelivery
  backs delivery id hid := by
    simp [Data.pointer, hdeliveries] at hid
  solid delivery row hrow := by
    simp [hdeliveries] at hrow
  genuine delivery row hrow := by
    simp [hdeliveries] at hrow
  created delivery := by
    simp [executionsCreated, Data.pointer, hdeliveries]

lemma delivered_of_run
    (hrun : Run (CrewStep.Guarded (dispatchers settings limits) guard) (.idle s) events c) :
    Delivered events c.shared := by
  obtain ⟨w, hw, hseen⟩ := dispatch_invariant
    (fun events w => Delivered events w.shared ∧ Informed w)
    ⟨delivered_nil hdeliveries hexecutions, informed_idle⟩
    (fun _ _ _ _ h hstep _ => ⟨h.1.step h.2 hstep, h.2.step hstep⟩) Crew.seen_idle hrun
  exact hseen.shared ▸ hw.1

end

/-- **At most one execution is created for an event and a trigger**, in every run of any number of
dispatchers; the delivery points to it, and it to the delivery; and none is created for an event
about events. -/
theorem one_execution_per_delivery (settings : DispatchSettings) (limits : Limits) (s : Data)
    (hdeliveries : s.deliveries = .empty)
    (hexecutions : ∀ id row, s.executions.get? id = some row → row.eventDeliveryId = none)
    (events : List DispatchEvent)
    (c : Crew ℕ Data DispatchStatement DispatchAnswer DispatchError Unit)
    (hrun : Run (CrewStep (dispatchers settings limits)) (.idle s) events c)
    (delivery : DeliveryId) :
    (executionsCreated events delivery).length ≤ 1 ∧
    (∀ id row, c.shared.executions.get? id = some row → row.eventDeliveryId = some delivery →
      executionsCreated events delivery = [id]) ∧
    (∀ row, c.shared.deliveries.get? delivery = some row → row.status = .materialized →
      ∃ id execution, row.executionId = some id ∧ executionsCreated events delivery = [id] ∧
        c.shared.executions.get? id = some execution ∧
        execution.eventDeliveryId = some delivery) ∧
    (∀ row, c.shared.events.get? delivery.internalEventId = some row →
      row.eventType.diagnostic = true → executionsCreated events delivery = []) := by
  have h := delivered_of_run hdeliveries hexecutions (CrewStep.guarded hrun)
  have hcreated := h.created delivery
  refine ⟨?_, fun id row hrow hdelivery => ?_, fun row hrow hstatus => ?_,
    fun row hrow hdiagnostic => ?_⟩
  · rw [hcreated]
    cases c.shared.pointer delivery <;> simp
  · rw [hcreated, h.points id row delivery hrow hdelivery]
    rfl
  · obtain ⟨id, hid⟩ := Option.isSome_iff_exists.mp (h.solid delivery row hrow hstatus)
    have hpointer : c.shared.pointer delivery = some id := by
      simp [Data.pointer, hrow, DeliveryRow.execution?, hstatus, hid]
    obtain ⟨execution, hexecution, heq⟩ := h.backs delivery id hpointer
    exact ⟨id, execution, hid, by rw [hcreated, hpointer]; rfl, hexecution, heq⟩
  · rw [hcreated]
    cases hget : c.shared.deliveries.get? delivery with
    | none => simp [Data.pointer, hget]
    | some found =>
      obtain ⟨row', hrow', hgenuine⟩ := h.genuine delivery found hget
      rw [hrow, Option.some.injEq] at hrow'
      simp [← hrow', hdiagnostic] at hgenuine

/-! ## Two dispatchers at one event -/

/-- A completed execution, and a trigger for such events. -/
def trialData : Data where
  clock := 0
  events := ⟨[newEvent "event" "org" .executionCompleted (.obj []) 0 "event" none 0 none], by simp⟩
  chains := ⟨[⟨"event", "org", 1⟩], by simp⟩
  deliveries := .empty
  executions := .empty
  triggers := ⟨[⟨"trigger", "org", "workflow", .executionCompleted, true, none, none⟩], by simp⟩
  workflows := Table.empty.insertNew ⟨"workflow", "org", .active, some "version"⟩
  versions := Table.empty.insertNew
    ⟨"version", "org", "workflow", .active, some 0, ⟨none, .webhookTrigger, [], none⟩⟩

def trialSettings : DispatchSettings := ⟨50, 30000, by decide, by decide⟩

def trialLimits : Limits := ⟨8, 100, by decide⟩

/-- An action of the trial. -/
abbrev TrialAction : Type := CrewAction ℕ Unit DispatchOracle Change

/-- A dispatcher begins and claims the event. -/
def claims (i : ℕ) : List TrialAction := .start i () :: goes i 1 { events := ["event"] }

/-- Both dispatchers have read the pending delivery; the second one creates the execution, and the
first one takes it over. -/
def bothDeliver : List TrialAction :=
  claims 0 ++ goes 0 5 ++ [.other (.tick 30001)] ++ claims 1 ++ goes 1 3 ++
    goes 1 1 { id := "run" } ++ goes 0 3 { id := "other" }

/-- One execution is created. -/
theorem one_execution_per_delivery_of_two :
    ∃ events c, Run (CrewStep (dispatchers trialSettings trialLimits)) (.idle trialData) events c ∧
      executionsCreated events ⟨"event", "trigger"⟩ = ["run"] := by
  have hscript : (script (Crew.act (dispatchers trialSettings trialLimits)) (.idle trialData)
      bothDeliver).any (fun done => done.2.shared.deliveries.get? ⟨"event", "trigger"⟩ =
        some ⟨⟨"event", "trigger"⟩, "org", .materialized, some "run"⟩) := by decide +kernel
  obtain ⟨events, c, hrun, hlast⟩ := Crew.exists_free_run hscript
  have hresult := one_execution_per_delivery trialSettings trialLimits trialData rfl nofun events c
    hrun ⟨"event", "trigger"⟩
  obtain ⟨id, -, hid, hcreated, -⟩ := hresult.2.2.1 _ hlast rfl
  cases hid
  exact ⟨events, c, hrun, hcreated⟩

end Flowmind.InternalEvents
