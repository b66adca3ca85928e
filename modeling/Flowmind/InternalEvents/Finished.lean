import Flowmind.InternalEvents.Deliveries

/-!
# Finished events

A dispatcher that has lost its lease goes on, and its statements find the event by its id alone.

* `finished_stays_finished` — an event that is processed or dead stays so, and no event is processed
  while one of its deliveries is pending, as long as a dispatcher changes an event only while it is
  the last one that has claimed it.
* `processed_event_reopened` — otherwise an event that is processed becomes pending again.
-/

namespace Flowmind.InternalEvents

open Program Store
open CrewAction (goes)

variable {settings : DispatchSettings} {limits : Limits} {w w' : DispatchViews}
  {event : DispatchEvent} {events : List DispatchEvent} {s s' : Data} {id : String}

/-- The event is being processed by a dispatcher, and by no later one. -/
def Data.Holds (s : Data) (i : ℕ) (id : String) : Prop :=
  ∃ row, s.events.get? id = some row ∧ row.status = .processing ∧ row.lockedBy = some i

instance (s : Data) (i : ℕ) (id : String) : Decidable (s.Holds i id) :=
  decidable_of_iff ((s.events.get? id).any fun row =>
    decide (row.status = .processing) && decide (row.lockedBy = some i)) (by
      cases hrow : s.events.get? id <;> simp [Data.Holds, hrow])

/-- A dispatcher changes an event only while it is the last one that has claimed it. -/
def Fenced (s : Data) : DispatchEvent → Prop
  | .perform i (.recordMatches id _ _) (.ok _) => s.Holds i id
  | .perform i (.finishEvent id) (.ok _) => s.Holds i id
  | .perform i (.failEvent id _ _ _ _ _) (.ok _) => s.Holds i id
  | _ => True

instance (s : Data) : DecidablePred (Fenced s) := fun event => by
  unfold Fenced
  split <;> infer_instance

/-- The event has a delivery that is pending. -/
def Data.HasPending (s : Data) (id : String) : Prop :=
  ∃ delivery row, s.deliveries.get? delivery = some row ∧ delivery.internalEventId = id ∧
    row.isPending = true

/-! ## One step -/

/-- What a step does to the row of an event. -/
inductive Moves (w : DispatchViews) (event : DispatchEvent) (id : String)
    (row row' : EventRow) : Prop where
  | same (status : row'.status = row.status) (lockedBy : row'.lockedBy = row.lockedBy)
  | claimed {i : ℕ} {ids : List String} (heq : event = .perform i .claim (.ok ids))
      (hopen : row.status.isFinished = false) (status : row'.status = .processing)
      (lockedBy : row'.lockedBy = some i)
  | finished {i : ℕ} {view : DispatchView} (heq : event = .perform i (.finishEvent id) (.ok ()))
      (hview : w.view i = some view) (hclear : view.clear = some id)
      (lockedBy : row'.lockedBy = none)
  | failed {i : ℕ} {dead : Bool} {next : Option ℕ} {organizationId : String}
      {eventType : EventType} {code : String}
      (heq : event = .perform i (.failEvent id dead next organizationId eventType code) (.ok ()))
      (status : row'.status ≠ .processed) (lockedBy : row'.lockedBy = none)

variable {row : EventRow}

lemma isClaimable_of_mem {wanted : List String} (hrow : s.events.get? id = some row)
    (hmem : row.id ∈ s.claimable settings wanted) : row.isClaimable s.clock = true := by
  obtain ⟨other, hother, hid⟩ := List.mem_map.mp (List.mem_of_mem_take hmem)
  simp only [List.mem_filter, Bool.and_eq_true] at hother
  have hget : s.events.get? id = some other :=
    Table.get?_eq_some_iff.mpr ⟨hother.1, by rw [← Table.key_of_get? hrow, hid]⟩
  rw [hrow, Option.some.injEq] at hget
  exact hget ▸ hother.2.1

variable {row' : EventRow}

lemma moves_updateEvent {where_ : EventRow → Bool} {set : EventRow → EventRow}
    (hset : ∀ row, (set row).id = row.id)
    (hrow' : (s.updateEvent where_ set hset).events.get? id = some row')
    (hmoves : ∀ row, s.events.get? id = some row → where_ row = true →
      Moves w event id row (set row)) :
    ∃ row, s.events.get? id = some row ∧ Moves w event id row row' := by
  rw [Data.get?_updateEvent, Option.map_eq_some_iff] at hrow'
  obtain ⟨row, hrow, rfl⟩ := hrow'
  refine ⟨row, hrow, ?_⟩
  split_ifs with hwhere
  · exact hmoves row hrow hwhere
  · exact .same rfl rfl

lemma Data.Adds.event_cases (h : s.Adds limits s' row) (hstatus : row.status = .pending)
    (hrow' : s'.events.get? id = some row') :
    s.events.get? id = some row' ∨ s.events.get? id = none ∧ row'.status = .pending := by
  have hfresh := h.fresh
  rw [h.events] at hrow'
  split_ifs at hrow' with hid
  · cases hrow'
    exact .inr ⟨hid ▸ hfresh, hstatus⟩
  · exact .inl hrow'

variable {i : ℕ}

lemma moves_failed {failedId : String} {dead : Bool} {next : Option ℕ} {organizationId : String}
    {eventType : EventType} {code : String}
    (hrow' : (s.updateEvent (fun row => decide (row.id = failedId))
      (EventRow.failed dead next)).events.get? id = some row') :
    ∃ row, s.events.get? id = some row ∧
      Moves w (.perform i (.failEvent failedId dead next organizationId eventType code) (.ok ())) id
        row row' := by
  refine moves_updateEvent _ hrow' fun row hrow hwhere => ?_
  obtain rfl : id = failedId := (Table.key_of_get? hrow).symm.trans (of_decide_eq_true hwhere)
  refine .failed rfl ?_ rfl
  cases dead <;> simp [EventRow.failed]

lemma EventRow.IsOf.status_pending {emission : Emission}
    (h : row.IsOf limits emission ∨ row.IsDiagnostic) : row.status = .pending :=
  h.elim (·.status) (·.status)

lemma Effect.event_cases (h : Effect settings limits w event s')
    (hrow' : s'.events.get? id = some row') :
    (∃ row, w.shared.events.get? id = some row ∧ Moves w event id row row') ∨
      w.shared.events.get? id = none ∧ row'.status = .pending := by
  have hadded : ∀ {row : EventRow}, w.shared.Adds limits s' row → row.status = .pending →
      (∃ row, w.shared.events.get? id = some row ∧ Moves w event id row row') ∨
        w.shared.events.get? id = none ∧ row'.status = .pending := by
    intro row hadds hstatus
    exact (hadds.event_cases hstatus hrow').imp_left fun hold => ⟨row', hold, .same rfl rfl⟩
  cases h with
  | idle hevents => exact .inl ⟨row', hevents ▸ hrow', .same rfl rfl⟩
  | skipped | created | adopted => exact .inl ⟨row', hrow', .same rfl rfl⟩
  | claim =>
    refine .inl (moves_updateEvent _ hrow' fun row hrow hwhere => ?_)
    have hclaimable := isClaimable_of_mem hrow (of_decide_eq_true hwhere)
    simp only [EventRow.isClaimable, Bool.and_eq_true, Bool.not_eq_true'] at hclaimable
    exact .claimed rfl hclaimable.1.1 rfl rfl
  | matched =>
    have hkey : ∀ row, (EventRow.matched w.shared.clock row).id = row.id := fun _ => rfl
    exact .inl (moves_updateEvent hkey hrow' fun row _ _ => .same rfl rfl)
  | @finished i id' _ hview hclear =>
    refine .inl (moves_updateEvent _ hrow' fun row hrow hwhere => ?_)
    obtain rfl : id = id' := (Table.key_of_get? hrow).symm.trans (of_decide_eq_true hwhere)
    exact .finished rfl hview hclear rfl
  | failed hfail =>
    rcases Data.failEvent_cases limits hfail with rfl | ⟨row, hadds, hdiagnostic⟩
    · exact .inl (moves_failed hrow')
    · refine (hadds.event_cases hdiagnostic.status hrow').imp moves_failed
        fun hnew => ⟨?_, hnew.2⟩
      exact Option.map_eq_none_iff.mp ((Data.get?_updateEvent _ id).symm.trans hnew.1)
  | plain hadd | child _ hadd =>
    obtain ⟨_, heq⟩ := Option.dite_none_right_eq_some.mp hadd
    cases heq
    exact .inl ⟨row', hrow', .same rfl rfl⟩
  | emitted _ hadds hrow => exact hadded hadds (EventRow.IsOf.status_pending hrow)
  | requested hadds hstatus => exact hadded hadds hstatus

/-- A delivery that an update leaves pending was pending, and is not changed. -/
lemma hasPending_of_updateDelivery {delivery : DeliveryId} {where_ : DeliveryRow → Bool}
    {set : DeliveryRow → DeliveryRow} (hset : ∀ row, (set row).id = row.id)
    (hstatus : ∀ row, (set row).isPending = false) {other : DeliveryId} {row' : DeliveryRow}
    (hrow' : (s.updateDelivery delivery where_ set hset).deliveries.get? other = some row')
    (hpending : row'.isPending = true) : s.HasPending other.internalEventId := by
  rw [Data.get?_updateDelivery hset, Option.map_eq_some_iff] at hrow'
  obtain ⟨row, hrow, rfl⟩ := hrow'
  split_ifs at hpending
  · simp [hstatus] at hpending
  · exact ⟨other, row, hrow, rfl, hpending⟩

/-- A delivery becomes pending only when it is recorded. -/
lemma Effect.hasPending_cases (h : Effect settings limits w event s')
    (hpending : s'.HasPending id) :
    w.shared.HasPending id ∨
      ∃ i organizationId triggerIds,
        event = .perform i (.recordMatches id organizationId triggerIds) (.ok ()) := by
  obtain ⟨delivery, row', hrow', rfl, hstatus⟩ := hpending
  have hsame : s'.deliveries = w.shared.deliveries →
      w.shared.HasPending delivery.internalEventId :=
    fun hdeliveries => ⟨delivery, row', hdeliveries ▸ hrow', rfl, hstatus⟩
  cases h with
  | idle _ _ hdeliveries => exact .inl (hsame hdeliveries)
  | claim | finished => exact .inl (hsame rfl)
  | failed hfail => exact .inl (hsame (Data.executions_of_failEvent hfail).2)
  | plain hadd | child _ hadd => exact .inl (hsame (Data.deliveries_of_addExecution hadd))
  | emitted _ hadds | requested hadds => exact .inl (hsame hadds.deliveries)
  | skipped | adopted =>
    exact .inl (hasPending_of_updateDelivery _ (fun _ => rfl) hrow' hstatus)
  | @created _ _ executionId _ _ _ _ _ _ =>
    have hkey : ∀ row, (DeliveryRow.materialized executionId row).id = row.id := fun _ => rfl
    exact .inl (hasPending_of_updateDelivery hkey (fun _ => rfl) hrow' hstatus)
  | @matched i id organizationId triggerIds =>
    change (addDeliveries organizationId id triggerIds w.shared.deliveries).get? delivery = _
      at hrow'
    rw [get?_addDeliveries] at hrow'
    cases hold : w.shared.deliveries.get? delivery with
    | some old =>
      rw [hold] at hrow'
      exact .inl ⟨delivery, row', hrow' ▸ hold, rfl, hstatus⟩
    | none =>
      simp only [hold, Option.none_or, Option.ite_none_right_eq_some] at hrow'
      rw [hrow'.1.1]
      exact .inr ⟨i, organizationId, triggerIds, rfl⟩

/-! ## Finished events -/

lemma Data.Holds.unique {j : ℕ} (hi : s.Holds i id) (hj : s.Holds j id) : i = j := by
  obtain ⟨row, hrow, -, hlock⟩ := hi
  obtain ⟨row', hrow', -, hlock'⟩ := hj
  rw [hrow, Option.some.injEq] at hrow'
  rw [hrow', hlock', Option.some.injEq] at hlock
  exact hlock.symm

/-- A finished event stays as it is. -/
lemma status_of_finished (h : Effect settings limits w event s') (hfenced : Fenced w.shared event)
    (hrow : w.shared.events.get? id = some row) (hfinished : row.status.isFinished = true) :
    ∃ row', s'.events.get? id = some row' ∧ row'.status = row.status := by
  have hnot : ∀ i, ¬w.shared.Holds i id := by
    rintro i ⟨other, hother, hprocessing, -⟩
    rw [hrow, Option.some.injEq] at hother
    rw [hother, hprocessing] at hfinished
    cases hfinished
  obtain ⟨row', hrow', -⟩ := h.event_kept hrow
  refine ⟨row', hrow', ?_⟩
  rcases h.event_cases hrow' with ⟨old, hold, hmoves⟩ | ⟨hnone, -⟩
  · rw [hrow, Option.some.injEq] at hold
    subst hold
    cases hmoves with
    | same hstatus => exact hstatus
    | claimed _ hopen => simp [hopen] at hfinished
    | finished heq => exact absurd (heq ▸ hfenced) (hnot _)
    | failed heq => exact absurd (heq ▸ hfenced) (hnot _)
  · simp [hrow] at hnone

/-- No event is processed while one of its deliveries is pending, and a dispatcher that has seen no
pending delivery of its event is right. -/
structure Clean (w : DispatchViews) : Prop where
  processed : ∀ id row, w.shared.events.get? id = some row → row.status = .processed →
    ¬w.shared.HasPending id
  clear : ∀ i view id, w.view i = some view → view.clear = some id → w.shared.Holds i id →
    ¬w.shared.HasPending id

lemma clean_processed (h : Clean w) (heffect : Effect settings limits w event s')
    (hfenced : Fenced w.shared event) (hrow' : s'.events.get? id = some row')
    (hprocessed : row'.status = .processed) : ¬s'.HasPending id := by
  intro hpending
  rcases heffect.event_cases hrow' with ⟨row, hrow, hmoves⟩ | ⟨-, hstatus⟩
  · cases hmoves with
    | same hstatus =>
      rcases heffect.hasPending_cases hpending with hold | ⟨i, organizationId, triggerIds, rfl⟩
      · exact h.processed id row hrow (hstatus ▸ hprocessed) hold
      · obtain ⟨other, hother, hprocessing, -⟩ := hfenced
        rw [hrow, Option.some.injEq] at hother
        rw [hstatus, hother, hprocessing] at hprocessed
        cases hprocessed
    | claimed _ _ hstatus => simp [hstatus] at hprocessed
    | failed _ hstatus => exact hstatus hprocessed
    | finished heq hview hclear =>
      subst heq
      rcases heffect.hasPending_cases hpending with hold | ⟨_, _, _, heq⟩
      · exact h.clear _ _ id hview hclear hfenced hold
      · cases heq
  · simp [hstatus] at hprocessed

/-- A dispatcher that holds an event has held it before, unless it has just claimed it. -/
lemma holds_of_holds (heffect : Effect settings limits w event s') (h : s'.Holds i id)
    (hclaim : ∀ ids, event ≠ .perform i .claim (.ok ids)) : w.shared.Holds i id := by
  obtain ⟨row', hrow', hprocessing, hlock⟩ := h
  rcases heffect.event_cases hrow' with ⟨row, hrow, hmoves⟩ | ⟨-, hstatus⟩
  · cases hmoves with
    | same hstatus hlocked => exact ⟨row, hrow, hstatus ▸ hprocessing, hlocked ▸ hlock⟩
    | claimed heq _ _ hlocked =>
      rw [hlocked, Option.some.injEq] at hlock
      exact absurd (hlock ▸ heq) (hclaim _)
    | finished _ _ _ hlocked | failed _ _ hlocked => simp [hlocked] at hlock
  · simp [hstatus] at hprocessing

/-- A statement after which a dispatcher does not know any more whether a delivery is pending. -/
def DispatchStatement.isStale : DispatchStatement → Bool
  | .claim | .recordMatches .. => true
  | _ => false

/-- What a dispatcher has seen: the event was clear before, or it is now. -/
lemma clear_of_performs {op : DispatchStatement} {answer : DispatchAnswer op}
    {view : DispatchView}
    (hperf : ViewStep.Performs (dispatchers settings limits) dispatchProtocol w i op answer s' view)
    (hclear : (dispatchProtocol.next view op answer).clear = some id) :
    (view.clear = some id ∧ op.isStale = false) ∨ ¬s'.HasPending id := by
  obtain ⟨oracle, hperform⟩ := hperf.perform
  rcases DispatchStatement.perform_cases hperform with ⟨error, rfl, -⟩ | hsucceed
  · cases op with
    | claim | recordMatches => cases hclear
    | _ => exact .inl ⟨hclear, rfl⟩
  · cases op with
    | claim | recordMatches => cases hclear
    | findEvent =>
      cases hsucceed
      cases hclear
    | findExecution => rcases answer with error | (_ | executionId) <;> exact .inl ⟨hclear, rfl⟩
    | countPending counted =>
      cases hsucceed
      refine .inr ?_
      rintro ⟨delivery, row, hrow, rfl, hpending⟩
      obtain ⟨hcount, ⟨⟩⟩ := Option.ite_none_right_eq_some.mp hclear
      refine List.countP_eq_zero.mp hcount row (Table.get?_eq_some_iff.mp hrow).1 ?_
      simp [Table.key_of_get? hrow, hpending]
    | _ => exact .inl ⟨hclear, rfl⟩

lemma Clean.step (h : Clean w) (hstep : DispatchStep settings limits w event w')
    (hfenced : Fenced w.shared event) : Clean w' where
  processed id row hrow hprocessed :=
    clean_processed h (effect_of_step hstep) hfenced hrow hprocessed
  clear i view id hview hclear hholds hpending := by
    have heffect := effect_of_step hstep
    rcases hstep.view_cases hview with
      ⟨hview, hother⟩ | ⟨_, -, rfl⟩ | ⟨op, answer, before, rfl, hperf, rfl⟩
    · have hbefore := holds_of_holds heffect hholds fun ids => hother .claim (.ok ids)
      rcases heffect.hasPending_cases hpending with hold | ⟨j, organizationId, triggerIds, rfl⟩
      · exact h.clear i view id hview hclear hbefore hold
      · obtain rfl := Data.Holds.unique hbefore hfenced
        exact hother _ _ rfl
    · cases hclear
    · rcases clear_of_performs hperf hclear with ⟨hclear, hstale⟩ | hnone
      · have hbefore := holds_of_holds heffect hholds fun ids heq => by
          obtain ⟨-, rfl, -⟩ := CrewEvent.perform.inj heq
          cases hstale
        rcases heffect.hasPending_cases hpending with hold | ⟨j, organizationId, triggerIds, heq⟩
        · exact h.clear i before id hperf.view hclear hbefore hold
        · obtain ⟨-, rfl, -⟩ := CrewEvent.perform.inj heq
          cases hstale
      · exact hnone hpending

/-- **Finished events stay finished**, in every run in which a dispatcher changes an event only
while it is the last one that has claimed it: no event is processed while one of its deliveries is
pending, and an event that is processed or dead keeps its status in whatever comes after. -/
theorem finished_stays_finished (settings : DispatchSettings) (limits : Limits) (s : Data)
    (hclean : ∀ id row, s.events.get? id = some row → row.status = .processed → ¬s.HasPending id)
    (events : List DispatchEvent)
    (c : Crew ℕ Data DispatchStatement DispatchAnswer DispatchError Unit)
    (hrun : Run (CrewStep.Guarded (dispatchers settings limits) Fenced) (.idle s) events c) :
    (∀ id row, c.shared.events.get? id = some row → row.status = .processed →
      ¬c.shared.HasPending id) ∧
    ∀ later c', Run (CrewStep.Guarded (dispatchers settings limits) Fenced) c later c' →
      ∀ id row, c.shared.events.get? id = some row → row.status.isFinished = true →
        ∃ row', c'.shared.events.get? id = some row' ∧ row'.status = row.status := by
  have hidle : Clean (.idle s) := ⟨hclean, by rintro i view id ⟨⟩⟩
  obtain ⟨w, hw, hseen⟩ := dispatch_invariant (fun _ w => Clean w) hidle
    (fun _ _ _ _ h hstep hfenced => h.step hstep hfenced) Crew.seen_idle hrun
  refine ⟨hseen.shared ▸ hw.processed, fun later c' hlater id row hrow hfinished => ?_⟩
  obtain ⟨w', hw', hseen'⟩ := dispatch_invariant
    (fun _ w' => ∃ row', w'.shared.events.get? id = some row' ∧ row'.status = row.status)
    ⟨row, hseen.shared ▸ hrow, rfl⟩
    (fun _ w₁ _ w₂ ⟨row₁, hrow₁, hstatus⟩ hstep hfenced => by
      obtain ⟨row₂, hrow₂, hsame⟩ := status_of_finished (effect_of_step hstep) hfenced hrow₁
        (hstatus ▸ hfinished)
      exact ⟨row₂, hrow₂, hsame.trans hstatus⟩) hseen hlater
  exact hseen'.shared ▸ hw'

/-! ## A dispatcher that has lost its lease -/

/-- The status of an event. -/
def Data.eventStatus (s : Data) (id : String) : Option EventStatus :=
  (s.events.get? id).map (·.status)

/-- The second dispatcher processes the event. -/
def takesOver : List TrialAction :=
  claims 0 ++ goes 0 1 ++ [.other (.tick 30001)] ++ claims 1 ++ goes 1 5 ++
    goes 1 1 { id := "run" } ++ goes 1 3

/-- A dispatcher takes over the event that another one has claimed, and processes it. -/
theorem finished_stays_finished_taken_over :
    ∃ events c, Run (CrewStep.Guarded (dispatchers trialSettings trialLimits) Fenced)
        (.idle trialData) events c ∧ c.shared.eventStatus "event" = some .processed ∧
      ∀ row, c.shared.events.get? "event" = some row → row.status = .processed →
        ¬c.shared.HasPending "event" := by
  have hscript : (script (Crew.actIf (dispatchers trialSettings trialLimits) Fenced)
      (.idle trialData) takesOver).any (fun done =>
        done.2.shared.eventStatus "event" = some .processed) := by decide +kernel
  obtain ⟨events, c, hrun, hlast⟩ := Crew.exists_run hscript
  have hclean : ∀ id row, trialData.events.get? id = some row → row.status = .processed →
      ¬trialData.HasPending id := by
    rintro id row - - ⟨delivery, found, hfound, -⟩
    cases hfound
  exact ⟨events, c, hrun, hlast,
    (finished_stays_finished trialSettings trialLimits trialData hclean events c hrun).1 "event"⟩

/-- A statement of the first one fails. -/
def fails : List TrialAction := goes 0 1 { error := some (.other "p1001") } ++ goes 0 4

/-- The first one then fails, and the event is pending again. -/
theorem processed_event_reopened :
    ∃ events c later c',
      Run (CrewStep (dispatchers trialSettings trialLimits)) (.idle trialData) events c ∧
      Run (CrewStep (dispatchers trialSettings trialLimits)) c later c' ∧
      c.shared.eventStatus "event" = some .processed ∧
      c'.shared.eventStatus "event" = some .pending := by
  have hscript : (script (Crew.act (dispatchers trialSettings trialLimits)) (.idle trialData)
      takesOver).any (fun done => done.2.shared.eventStatus "event" = some .processed ∧
        (script (Crew.act (dispatchers trialSettings trialLimits)) done.2 fails).any fun later =>
          later.2.shared.eventStatus "event" = some .pending) := by decide +kernel
  obtain ⟨events, c, hrun, hprocessed, hthen⟩ := Crew.exists_free_run hscript
  obtain ⟨later, c', hlater, hpending⟩ := Crew.exists_free_run hthen
  exact ⟨events, c, later, c', hrun, hlater, hprocessed, hpending⟩

end Flowmind.InternalEvents
