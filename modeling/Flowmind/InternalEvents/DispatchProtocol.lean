import Flowmind.InternalEvents.Dispatcher

/-!
# What a dispatcher may do

A dispatcher keeps to a protocol: it records deliveries for the event it has read, creates
executions for deliveries of that event, takes an execution for a delivery only if it has found it
there, and finishes an event only when it has seen no pending delivery of it.

* `proper_runDispatch` — the dispatcher keeps to the protocol.
* `effect_of_step` — what a step does to the tables, by what made it.
* `Effect.event_kept`, `Effect.execution_kept` — no step loses an event or an execution, or changes
  what they say about their cause.
-/

namespace Flowmind.InternalEvents

open Program Store

/-! ## The protocol -/

/-- What a dispatcher knows: the event it is at, the execution it has found for a delivery, and the
event of which it has seen no pending delivery. -/
structure DispatchView where
  event : Option EventRow := none
  found : Option (DeliveryId × String) := none
  clear : Option String := none

/-- The execution for a delivery says which event has caused it. -/
structure Materialization.IsOf (new : Materialization) (event : EventRow) : Prop where
  delivery : new.delivery.internalEventId = event.id
  root : new.rootEventId = event.rootEventId
  causation : new.causationId = event.id
  depth : new.depth = event.depth

def dispatchProtocol : Protocol DispatchStatement DispatchAnswer DispatchView where
  ok view
    | .recordMatches id _ triggerIds => ∃ event, view.event = some event ∧ event.id = id ∧
        (event.eventType.diagnostic = true → triggerIds = [])
    | .createExecution new => ∃ event, view.event = some event ∧ new.IsOf event
    | .adoptExecution delivery executionId => view.found = some (delivery, executionId)
    | .finishEvent id => view.clear = some id
    | _ => True
  rely
    | .findEvent id, .ok (found : Option EventRow) => ∀ event, found = some event → event.id = id
    | .findPending id _, .ok (deliveries : List LoadedDelivery) =>
      ∀ delivery ∈ deliveries, delivery.row.id.internalEventId = id
    | _, _ => True
  next view
    | .claim, _ => {}
    | .findEvent _, .ok (found : Option EventRow) => { event := found }
    | .findExecution delivery _, .ok (some executionId) =>
      { view with found := some (delivery, executionId) }
    | .recordMatches .., _ => { view with clear := none }
    | .countPending id, .ok (count : ℕ) =>
      { view with clear := if count = 0 then some id else none }
    | _, _ => view

section Meets

variable {view : DispatchView} {statement : DispatchStatement}
  {exc : DispatchView → DispatchError → Prop}

/-- One statement, and what comes after it. -/
lemma meets_ask_then {β : Type} {f : DispatchValue statement → Dispatch β}
    {post : DispatchView → β → Prop} (hok : dispatchProtocol.ok view statement)
    (hf : ∀ value, dispatchProtocol.rely statement (.ok value) →
      Meets dispatchProtocol post exc (f value) (dispatchProtocol.next view statement (.ok value)))
    (hexc : ∀ error, exc (dispatchProtocol.next view statement (.error error)) error) :
    Meets dispatchProtocol post exc ((Dispatch.ask statement).bind f) view := by
  refine ⟨hok, fun (answer : Except DispatchError (DispatchValue statement)) hrely => ?_⟩
  cases answer with
  | error error => exact hexc error
  | ok value => exact hf value hrely

/-- One statement. -/
lemma meets_ask_once {post : DispatchView → DispatchValue statement → Prop}
    (hok : dispatchProtocol.ok view statement)
    (hpost : ∀ value, dispatchProtocol.rely statement (.ok value) →
      post (dispatchProtocol.next view statement (.ok value)) value)
    (hexc : ∀ error, exc (dispatchProtocol.next view statement (.error error)) error) :
    Meets dispatchProtocol post exc (Dispatch.ask statement) view := by
  refine ⟨hok, fun (answer : Except DispatchError (DispatchValue statement)) hrely => ?_⟩
  cases answer with
  | error error => exact hexc error
  | ok value => exact hpost value hrely

/-- The dispatcher is at an event. -/
def AtEvent (event : EventRow) (view : DispatchView) : Prop := view.event = some event

/-- It stays there. -/
abbrev Stays {α : Type} (event : EventRow) (program : Dispatch α) (view : DispatchView) : Prop :=
  Meets dispatchProtocol (fun view' _ => AtEvent event view') (fun view' _ => AtEvent event view')
    program view

variable {event : EventRow} {delivery : LoadedDelivery}

lemma stays_adopt (hat : AtEvent event view) : Stays event (adopt event delivery) view := by
  refine meets_ask_then trivial (fun (found : Option String) _ => ?_) fun _ => hat
  cases found with
  | none => exact hat
  | some executionId => exact meets_ask_then rfl (fun _ _ => hat) fun _ => hat

lemma stays_createExecution {version : WorkflowVersionRow} (hat : AtEvent event view)
    (hdelivery : delivery.row.id.internalEventId = event.id) :
    Stays event (Dispatch.createExecution (materializationOf event delivery version)) view :=
  meets_ask_once ⟨event, hat, hdelivery, rfl, rfl, rfl⟩ (fun _ _ => hat) fun _ => hat

lemma stays_materialize (hat : AtEvent event view)
    (hdelivery : delivery.row.id.internalEventId = event.id) :
    Stays event (materialize event delivery) view := by
  unfold materialize
  cases delivery.activeVersion? with
  | none => exact meets_ask_once trivial (fun _ _ => hat) fun _ => hat
  | some version =>
    refine ((stays_createExecution hat hdelivery).handle fun view' error hat' => ?_).bind
      fun view' executionId hat' => ?_
    · exact Meets.ite (stays_adopt hat') hat'
    · have hadd : Stays event (Dispatch.ask (.enqueue executionId)) view' :=
        meets_ask_once trivial (fun _ _ => hat') fun _ => hat'
      exact hadd.handle fun _ _ hat'' => hat''

lemma stays_each_materialize {deliveries : List LoadedDelivery} (hat : AtEvent event view)
    (hdeliveries : ∀ delivery ∈ deliveries, delivery.row.id.internalEventId = event.id) :
    Stays event (Prog.each (materialize event) deliveries) view := by
  refine (Meets.each (fun left view' => AtEvent event view' ∧ ∀ delivery ∈ left,
    delivery.row.id.internalEventId = event.id) (fun delivery left view' hleft => ?_) deliveries
    view ⟨hat, hdeliveries⟩).mono (fun _ _ h => h.1) fun _ _ h => h
  refine (stays_materialize hleft.1 (hleft.2 delivery (by simp))).mono (fun _ _ hat' => ?_)
    fun _ _ hat' => hat'
  exact ⟨hat', fun other hother => hleft.2 other (by simp [hother])⟩

lemma meets_triggersOf (hat : AtEvent event view) :
    Meets dispatchProtocol
      (fun view' triggers => AtEvent event view' ∧
        (event.eventType.diagnostic = true → triggers = []))
      (fun view' _ => AtEvent event view') (triggersOf event) view := by
  unfold triggersOf
  split_ifs with hdiagnostic
  · exact ⟨hat, fun _ => rfl⟩
  · exact meets_ask_once trivial (fun _ _ => ⟨hat, fun h => absurd h hdiagnostic⟩) fun _ => hat

lemma stays_matching (hat : AtEvent event view) : Stays event (matching event) view := by
  unfold matching
  split_ifs
  · exact hat
  · refine (meets_triggersOf hat).bind fun view' triggers htriggers => ?_
    refine meets_ask_once ⟨event, htriggers.1, rfl, fun hdiagnostic => ?_⟩ (fun _ _ => htriggers.1)
      fun _ => htriggers.1
    simp [htriggers.2 hdiagnostic]

/-- The dispatcher keeps to the protocol. -/
abbrev Proper {α : Type} (program : Dispatch α) (view : DispatchView) : Prop :=
  Meets dispatchProtocol (fun _ _ => True) (fun _ _ => True) program view

lemma Stays.proper {α : Type} {program : Dispatch α} (h : Stays event program view) :
    Meets dispatchProtocol (fun view' _ => AtEvent event view') (fun _ _ => True) program view :=
  h.mono (fun _ _ hat => hat) fun _ _ _ => trivial

lemma proper_process (id : String) : Proper (process id) view := by
  refine meets_ask_then trivial (fun (found : Option EventRow) hrely => ?_) fun _ => trivial
  cases found with
  | none => trivial
  | some event =>
    obtain rfl : event.id = id := hrely event rfl
    have hat : AtEvent event
        (dispatchProtocol.next view (.findEvent event.id) (.ok (some event))) := rfl
    refine Meets.ite ?_ trivial
    refine meets_ask_then trivial (fun _ _ => ?_) fun _ => trivial
    refine (Stays.proper (stays_matching hat)).bind fun view' _ hat => ?_
    refine meets_ask_then trivial (fun deliveries hpending => ?_) fun _ => trivial
    refine (Stays.proper (stays_each_materialize hat hpending)).bind fun view' _ _ => ?_
    refine meets_ask_then trivial (fun (count : ℕ) _ => ?_) fun _ => trivial
    cases count with
    | zero => exact meets_ask_once rfl (fun _ _ => trivial) fun _ => trivial
    | succ => trivial

lemma proper_failProcessing (id : String) (error : DispatchError) :
    Proper (failProcessing id error) view := by
  refine meets_ask_then trivial (fun (found : Option EventRow) _ => ?_) fun _ => trivial
  cases found with
  | none => trivial
  | some row =>
    refine meets_ask_then trivial (fun _ _ => ?_) fun _ => trivial
    exact meets_ask_once trivial (fun _ _ => trivial) fun _ => trivial

lemma proper_processOne (id : String) : Proper (processOne id) view := by
  refine (proper_process id).handle fun view' error _ => ?_
  refine meets_ask_then trivial (fun (destroyed : Bool) _ => ?_) fun _ => trivial
  cases destroyed with
  | true => trivial
  | false => exact proper_failProcessing id error

lemma proper_runDispatch : Proper runDispatch view := by
  refine meets_ask_then trivial (fun ids _ => ?_) fun _ => trivial
  exact Meets.each (fun _ _ => True) (fun id _ _ _ => proper_processOne id) ids _ trivial

end Meets

/-! ## What is emitted -/

/-- The number of events of a root. -/
def Data.rootCount (s : Data) (root : String) : ℕ :=
  s.events.count fun row => decide (row.rootEventId = root)

/-- The number of events that a chain has counted. -/
def Data.chainCount (s : Data) (root : String) : ℕ := (s.chains.get? root).elim 0 (·.eventCount)

/-- An event is added, and counted in its chain; the rest is as before. -/
structure Data.Adds (limits : Limits) (s s' : Data) (row : EventRow) : Prop where
  fresh : s.events.get? row.id = none
  events : ∀ id, s'.events.get? id = if row.id = id then some row else s.events.get? id
  rootCount : ∀ root, s'.rootCount root = s.rootCount root + if row.rootEventId = root then 1 else 0
  chainCount : ∀ root,
    s'.chainCount root = s.chainCount root + if row.rootEventId = root then 1 else 0
  bounded : s'.chainCount row.rootEventId ≤ limits.maxChainEvents
  deliveries : s'.deliveries = s.deliveries
  executions : s'.executions = s.executions
  triggers : s'.triggers = s.triggers

lemma Data.Adds.get?_of_get? {limits : Limits} {s s' : Data} {row : EventRow}
    (h : s.Adds limits s' row) {id : String} {old : EventRow} (hold : s.events.get? id = some old) :
    s'.events.get? id = some old := by
  have hne : row.id ≠ id := by
    rintro rfl
    simp [h.fresh] at hold
  rw [h.events, if_neg hne, hold]

variable {limits : Limits} {s s' : Data} {organizationId : String} {row : EventRow} {id : String}

section Adds

variable {s₁ : Data} {root : String}

lemma chainCount_of_addChain (h : s.addChain root organizationId = some s') (root' : String) :
    s'.chainCount root' = s.chainCount root' + if root = root' then 1 else 0 := by
  obtain ⟨hfresh, ⟨⟩⟩ := Option.dite_none_right_eq_some.mp h
  simp only [Data.chainCount, Table.get?_insert]
  by_cases hroot : root = root'
  · subst hroot
    simp [hfresh]
  · simp [hroot]

/-- An event that begins a chain. -/
lemma adds_of_addChain (hchain : s.addChain row.rootEventId organizationId = some s₁)
    (hadd : s₁.addEvent row = some s') : s.Adds limits s' row := by
  have hcount := chainCount_of_addChain hchain
  obtain ⟨hnone, ⟨⟩⟩ := Option.dite_none_right_eq_some.mp hchain
  obtain ⟨hfresh, ⟨⟩⟩ := Option.dite_none_right_eq_some.mp hadd
  refine ⟨hfresh, fun id => Table.get?_insert _ _ hfresh id, fun root => ?_, hcount, ?_, rfl, rfl,
    rfl⟩
  · simp [Data.rootCount, Table.count_insert]
  · refine le_trans (hcount row.rootEventId).le ?_
    simpa [Data.chainCount, hnone] using limits.one_le_maxChainEvents

variable {maxChainEvents : ℕ}

lemma ChainRow.isOpen_iff {row : ChainRow} :
    row.isOpen root organizationId maxChainEvents = true ↔
      row.rootEventId = root ∧ row.organizationId = organizationId ∧
        row.eventCount < maxChainEvents := by
  simp [isOpen, and_assoc]

/-- A chain that an event may be added to. -/
lemma exists_open
    (hopen : s.chains.count (ChainRow.isOpen root organizationId maxChainEvents) ≠ 0) :
    ∃ chain, s.chains.get? root = some chain ∧
      chain.isOpen root organizationId maxChainEvents = true := by
  rw [Table.count_eq_elim s.chains fun row hrow => (ChainRow.isOpen_iff.mp hrow).1] at hopen
  cases hget : s.chains.get? root with
  | none => simp [hget] at hopen
  | some chain => exact ⟨chain, rfl, by simpa [hget] using hopen⟩

/-- An event of a chain that is open. -/
lemma adds_of_countEvent (hopen : s.chains.count
      (ChainRow.isOpen row.rootEventId organizationId limits.maxChainEvents) ≠ 0)
    (hadd : (s.countEvent row.rootEventId organizationId limits.maxChainEvents).addEvent row =
      some s') : s.Adds limits s' row := by
  obtain ⟨chain, hchain, hisOpen⟩ := exists_open hopen
  obtain ⟨hfresh, ⟨⟩⟩ := Option.dite_none_right_eq_some.mp hadd
  have hcount : ∀ root, (s.countEvent row.rootEventId organizationId
      limits.maxChainEvents).chainCount root =
        s.chainCount root + if row.rootEventId = root then 1 else 0 := by
    intro root
    simp only [Data.chainCount, Data.countEvent, Table.get?_updateMany]
    by_cases hroot : row.rootEventId = root
    · subst hroot
      simp [hchain, hisOpen]
    · cases hget : s.chains.get? root with
      | none => simp [hroot]
      | some other =>
        have hother : other.rootEventId ≠ row.rootEventId := by
          rw [Table.key_of_get? hget]
          exact fun h => hroot h.symm
        simp [ChainRow.isOpen, hother, hroot]
  refine ⟨hfresh, fun id => Table.get?_insert _ _ hfresh id, fun root => ?_, hcount, ?_, rfl, rfl,
    rfl⟩
  · simp [Data.rootCount, Data.countEvent, Table.count_insert]
  · refine le_trans (hcount row.rootEventId).le ?_
    have hlt := (ChainRow.isOpen_iff.mp hisOpen).2.2
    simp only [Data.chainCount, hchain, Option.elim_some, if_true]
    omega

/-- An event about events. -/
structure EventRow.IsDiagnostic (row : EventRow) : Prop where
  type : row.eventType.diagnostic = true
  status : row.status = .pending
  execution : row.executionId = none
  depth : row.depth = 0

lemma adds_of_addDiagnostic {type : EventType} {data : Json} (htype : type.diagnostic = true)
    (h : s.addDiagnostic id organizationId type data = some s') :
    ∃ row, s.Adds limits s' row ∧ row.IsDiagnostic := by
  obtain ⟨s₁, hchain, hadd⟩ := Option.bind_eq_some_iff.mp h
  exact ⟨_, adds_of_addChain hchain hadd, htype, rfl, rfl, rfl⟩

/-- The event of an emission. -/
structure EventRow.IsOf (limits : Limits) (emission : Emission) (row : EventRow) : Prop where
  type : row.eventType = emission.type
  status : row.status = .pending
  execution : row.executionId = emission.executionId
  root : ∀ root, emission.causality.rootEventId = some root → row.rootEventId = root
  depth : row.depth = emission.depth
  depth_le : row.depth ≤ limits.maxDepth

/-- **What is emitted** is the event, counted in its chain, or an event about its suppression. -/
lemma adds_of_emit {emission : Emission} {diagnosticId : String}
    (h : emit limits s emission id diagnosticId = some s') :
    ∃ row, s.Adds limits s' row ∧ (row.IsOf limits emission ∨ row.IsDiagnostic) := by
  simp only [emit] at h
  have hdiagnostic : ∀ {root reason}, s.suppress emission diagnosticId root reason = some s' →
      ∃ row, s.Adds limits s' row ∧ (row.IsOf limits emission ∨ row.IsDiagnostic) := by
    intro root reason hsuppress
    obtain ⟨row, hadds, hrow⟩ := adds_of_addDiagnostic rfl hsuppress
    exact ⟨row, hadds, .inr hrow⟩
  split_ifs at h with hdepth hroot hopen
  · exact hdiagnostic h
  · obtain ⟨s₁, hchain, hadd⟩ := Option.bind_eq_some_iff.mp h
    refine ⟨_, adds_of_addChain hchain hadd, .inl ⟨rfl, rfl, rfl, fun root hsome => ?_, rfl, ?_⟩⟩
    · simp [newEvent, hsome]
    · exact Nat.le_of_not_lt hdepth
  · exact hdiagnostic h
  · refine ⟨_, adds_of_countEvent hopen h, .inl ⟨rfl, rfl, rfl, fun root hsome => ?_, rfl, ?_⟩⟩
    · simp [newEvent, hsome]
    · exact Nat.le_of_not_lt hdepth

end Adds

/-! ## What a step does -/

/-- What happens in the system of all dispatchers. -/
abbrev DispatchEvent : Type := CrewEvent ℕ Unit DispatchAnswer DispatchError Unit Change

/-- What is known of all dispatchers. -/
abbrev DispatchViews : Type := Views ℕ Data DispatchView

/-- One step of what is known of all dispatchers. -/
abbrev DispatchStep (settings : DispatchSettings) (limits : Limits) :
    DispatchViews → DispatchEvent → DispatchViews → Prop :=
  ViewStep (dispatchers settings limits) dispatchProtocol (fun _ _ => {}) (fun _ _ => True)
    fun _ _ => True

/-- The effect of a step on the tables, by what made it; where it matters, with what the dispatcher
knew. -/
inductive Effect (settings : DispatchSettings) (limits : Limits) (w : DispatchViews) :
    DispatchEvent → Data → Prop where
  | idle {event : DispatchEvent} {s' : Data} (events : s'.events = w.shared.events)
      (chains : s'.chains = w.shared.chains) (deliveries : s'.deliveries = w.shared.deliveries)
      (executions : s'.executions = w.shared.executions)
      (created : ∀ i new id, event ≠ .perform i (.createExecution new) (.ok id)) :
      Effect settings limits w event s'
  | claim {i : ℕ} {ids wanted : List String} :
      Effect settings limits w (.perform i .claim (.ok ids)) (w.shared.claim settings i wanted)
  | matched {i : ℕ} {id organizationId : String} {triggerIds : List String} {view : DispatchView}
      (hview : w.view i = some view)
      (hok : dispatchProtocol.ok view (.recordMatches id organizationId triggerIds)) :
      Effect settings limits w (.perform i (.recordMatches id organizationId triggerIds) (.ok ()))
        (w.shared.recordMatches id organizationId triggerIds)
  | skipped {i : ℕ} {delivery : DeliveryId} :
      Effect settings limits w (.perform i (.skipDelivery delivery) (.ok ()))
        (w.shared.updateDelivery delivery DeliveryRow.isPending DeliveryRow.skipped)
  | created {i : ℕ} {new : Materialization} {id : String} {view : DispatchView}
      (hview : w.view i = some view) (hok : dispatchProtocol.ok view (.createExecution new))
      (hfirst : ∀ id row, w.shared.executions.get? id = some row →
        row.eventDeliveryId ≠ some new.delivery)
      (hdelivery : ∃ row, w.shared.deliveries.get? new.delivery = some row)
      (hfresh : w.shared.executions.get? (new.execution id).id = none) :
      Effect settings limits w (.perform i (.createExecution new) (.ok id))
        (w.shared.createExecution new id hfresh)
  | adopted {i : ℕ} {delivery : DeliveryId} {executionId : String} {view : DispatchView}
      (hview : w.view i = some view) (hfound : view.found = some (delivery, executionId)) :
      Effect settings limits w (.perform i (.adoptExecution delivery executionId) (.ok ()))
        (w.shared.updateDelivery delivery DeliveryRow.isPending
          (DeliveryRow.materialized executionId))
  | finished {i : ℕ} {id : String} {view : DispatchView} (hview : w.view i = some view)
      (hclear : view.clear = some id) :
      Effect settings limits w (.perform i (.finishEvent id) (.ok ()))
        (w.shared.updateEvent (fun row => decide (row.id = id)) EventRow.processed)
  | failed {i : ℕ} {id : String} {dead : Bool} {next : Option ℕ} {organizationId : String}
      {eventType : EventType} {code diagnosticId : String} {s' : Data}
      (h : w.shared.failEvent id dead next organizationId eventType code diagnosticId = some s') :
      Effect settings limits w
        (.perform i (.failEvent id dead next organizationId eventType code) (.ok ())) s'
  | plain {change : Change} {id organizationId workflowId : String}
      {workflowVersionId : Option String} {s' : Data}
      (h : w.shared.addExecution
        (plainExecution id organizationId workflowId workflowVersionId) = some s') :
      Effect settings limits w (.other change) s'
  | child {change : Change} {parent : CausedExecution} {parentId id workflowId : String}
      {workflowVersionId : Option String} {s' : Data}
      (hparent : w.shared.executions.get? parentId = some parent)
      (h : w.shared.addExecution (parent.child id workflowId workflowVersionId) = some s') :
      Effect settings limits w (.other change) s'
  | emitted {emitter : Emitter} {executionId : String} {type : EventType} {data : Json}
      {id diagnosticId : String} {execution : CausedExecution} {row : EventRow} {s' : Data}
      (hexecution : w.shared.executions.get? executionId = some execution)
      (hadds : w.shared.Adds limits s' row)
      (hrow : row.IsOf limits (emitter.emission execution type data) ∨ row.IsDiagnostic) :
      Effect settings limits w (.other (.emitFor emitter executionId type data id diagnosticId)) s'
  | requested {change : Change} {row : EventRow} {s' : Data} (hadds : w.shared.Adds limits s' row)
      (hstatus : row.status = .pending) (hdepth : row.depth ≤ limits.maxDepth)
      (hexecution : ∀ executionId, row.executionId = some executionId →
        ∃ execution, w.shared.executions.get? executionId = some execution ∧
          execution.eventRootId = none) :
      Effect settings limits w (.other change) s'

lemma DispatchStatement.perform_cases {settings : DispatchSettings} {i : ℕ}
    {oracle : DispatchOracle} {op : DispatchStatement} {answer : DispatchAnswer op}
    (h : op.perform settings i oracle s = some (answer, s')) :
    (∃ error, answer = .error error ∧ s' = s) ∨
      op.succeed settings i oracle s = some (answer, s') := by
  unfold perform at h
  split at h
  · split_ifs at h
    · cases h
      exact .inl ⟨_, rfl, rfl⟩
    · exact .inr h
  · exact .inr h

variable {settings : DispatchSettings} {w : DispatchViews}

section Effects

variable {w' : DispatchViews} {event : DispatchEvent}

lemma Effect.of_eq (h : s' = w.shared)
    (created : ∀ i new id, event ≠ .perform i (.createExecution new) (.ok id)) :
    Effect settings limits w event s' :=
  h ▸ .idle rfl rfl rfl rfl created

lemma effect_of_succeed {i : ℕ} {op : DispatchStatement} {answer : DispatchAnswer op}
    {oracle : DispatchOracle} {view : DispatchView} (hview : w.view i = some view)
    (hok : dispatchProtocol.ok view op)
    (h : op.succeed settings i oracle w.shared = some (answer, s')) :
    Effect settings limits w (.perform i op answer) s' := by
  cases op with
  | findEvent | findFailed | materializeNotifications | enqueue | findTriggers | findPending
  | findExecution | countPending | isDestroyed | now =>
    exact .of_eq (Prod.mk.inj (Option.some.inj h)).2.symm (by rintro _ _ _ ⟨⟩)
  | claim =>
    cases h
    exact .claim
  | recordMatches =>
    cases h
    exact .matched hview hok
  | skipDelivery =>
    cases h
    exact .skipped
  | adoptExecution =>
    cases h
    exact .adopted hview hok
  | finishEvent =>
    cases h
    exact .finished hview hok
  | failEvent =>
    obtain ⟨s'', hfail, ⟨⟩⟩ := Option.map_eq_some_iff.mp h
    exact .failed hfail
  | createExecution new =>
    simp only [DispatchStatement.succeed] at h
    split_ifs at h with hany hnone hfresh
    · cases h
      exact .of_eq rfl (by rintro _ _ _ ⟨⟩)
    · cases h
      exact .of_eq rfl (by rintro _ _ _ ⟨⟩)
    · cases h
      refine .created hview hok (fun id row hrow heq => hany ?_)
        (Option.ne_none_iff_exists'.mp hnone) hfresh
      exact List.any_eq_true.mpr ⟨row, (Table.get?_eq_some_iff.mp hrow).1, by simpa using heq⟩

variable {change : Change}

lemma requested_of_emit {emission : Emission} {diagnosticId : String}
    (h : emit limits w.shared emission id diagnosticId = some s')
    (hexecution : ∀ executionId, emission.executionId = some executionId →
        ∃ execution, w.shared.executions.get? executionId = some execution ∧
          execution.eventRootId = none) : Effect settings limits w (.other change) s' := by
  obtain ⟨row, hadds, hrow | hrow⟩ := adds_of_emit h
  · exact .requested hadds hrow.status hrow.depth_le fun executionId hid =>
      hexecution executionId (hrow.execution ▸ hid)
  · refine .requested hadds hrow.status (by simp [hrow.depth]) fun executionId hid => ?_
    simp [hrow.execution] at hid

lemma effect_of_change (h : change.perform limits w.shared = some s') :
    Effect settings limits w (.other change) s' := by
  cases change with
  | tick time =>
    obtain ⟨-, ⟨⟩⟩ := Option.ite_none_right_eq_some.mp h
    exact .idle rfl rfl rfl rfl nofun
  | edit =>
    cases h
    exact .idle rfl rfl rfl rfl nofun
  | createExecution => exact .plain h
  | startChild parentId =>
    obtain ⟨parent, hparent, hadd⟩ := Option.bind_eq_some_iff.mp h
    exact .child hparent hadd
  | emitFor emitter executionId type data id diagnosticId =>
    obtain ⟨execution, hexecution, hemit⟩ := Option.bind_eq_some_iff.mp h
    simp only [Option.ite_none_right_eq_some] at hemit
    obtain ⟨row, hadds, hrow⟩ := adds_of_emit hemit.2
    exact .emitted hexecution hadds hrow
  | changeRecord =>
    simp only [Change.perform, Option.ite_none_right_eq_some] at h
    exact requested_of_emit h.2 nofun
  | enqueueFailed executionId =>
    obtain ⟨execution, hexecution, hemit⟩ := Option.bind_eq_some_iff.mp h
    simp only [Option.ite_none_right_eq_some] at hemit
    refine requested_of_emit hemit.2 fun id hid => ?_
    cases hid
    exact ⟨execution, hexecution, hemit.1⟩

/-- **The effect of a step.** -/
lemma effect_of_step (hstep : DispatchStep settings limits w event w') :
    Effect settings limits w event w'.shared := by
  cases hstep with
  | start => exact .of_eq rfl (by rintro _ _ _ ⟨⟩)
  | ret | fail | crash => exact .of_eq rfl (by rintro _ _ _ ⟨⟩)
  | other hother => exact effect_of_change hother
  | perform oracle hview hok _ hperform =>
    rcases DispatchStatement.perform_cases hperform with ⟨error, rfl, rfl⟩ | hsucceed
    · exact .of_eq rfl (by rintro _ _ _ ⟨⟩)
    · exact effect_of_succeed hview hok hsucceed

end Effects

/-! ## What no step changes -/

/-- The columns of an event that never change. -/
structure EventRow.Same (row row' : EventRow) : Prop where
  type : row'.eventType = row.eventType
  root : row'.rootEventId = row.rootEventId
  depth : row'.depth = row.depth
  execution : row'.executionId = row.executionId

lemma EventRow.Same.refl (row : EventRow) : row.Same row := ⟨rfl, rfl, rfl, rfl⟩

section Kept

variable {event : DispatchEvent} {where_ : EventRow → Bool}

lemma Data.get?_updateEvent {set : EventRow → EventRow} (hset : ∀ row, (set row).id = row.id)
    (id : String) :
    (s.updateEvent where_ set hset).events.get? id =
      (s.events.get? id).map fun row => if where_ row then set row else row :=
  Table.get?_updateMany _ _ _ hset id

lemma Data.updateEvent_kept (set : EventRow → EventRow) (hset : ∀ row, (set row).id = row.id)
    (hsame : ∀ row : EventRow, row.Same (set row)) (hrow : s.events.get? id = some row) :
    ∃ row', (s.updateEvent where_ set hset).events.get? id = some row' ∧ row.Same row' := by
  rw [Data.get?_updateEvent, hrow]
  refine ⟨_, rfl, ?_⟩
  dsimp only
  split_ifs
  · exact hsame row
  · exact .refl row

variable {diagnosticId : String} {eventType : EventType}
  {dead : Bool} {next : Option ℕ} {code : String}

/-- What is left of a failed event, and whether it is announced. -/
lemma Data.failEvent_cases (limits : Limits)
    (h : s.failEvent id dead next organizationId eventType code diagnosticId = some s') :
    s' = s.updateEvent (fun row => decide (row.id = id)) (EventRow.failed dead next) ∨
      ∃ row, (s.updateEvent (fun row => decide (row.id = id)) (EventRow.failed dead next)).Adds
        limits s' row ∧ row.IsDiagnostic := by
  simp only [Data.failEvent] at h
  split_ifs at h
  · exact .inr (adds_of_addDiagnostic rfl h)
  · exact .inl (Option.some.inj h).symm

/-- No event is lost, and what it says about its cause does not change. -/
lemma Effect.event_kept (h : Effect settings limits w event s')
    (hrow : w.shared.events.get? id = some row) :
    ∃ row', s'.events.get? id = some row' ∧ row.Same row' := by
  cases h with
  | idle hevents => exact ⟨row, hevents ▸ hrow, .refl row⟩
  | claim =>
    exact Data.updateEvent_kept (EventRow.claimed _ _ _) (fun _ => rfl)
      (fun _ => ⟨rfl, rfl, rfl, rfl⟩) hrow
  | matched =>
    exact Data.updateEvent_kept (EventRow.matched _) (fun _ => rfl)
      (fun _ => ⟨rfl, rfl, rfl, rfl⟩) hrow
  | skipped | created | adopted => exact ⟨row, hrow, .refl row⟩
  | finished =>
    exact Data.updateEvent_kept EventRow.processed (fun _ => rfl)
      (fun _ => ⟨rfl, rfl, rfl, rfl⟩) hrow
  | @failed _ _ dead next _ _ _ _ _ hfail =>
    obtain ⟨row', hrow', hsame⟩ := Data.updateEvent_kept (EventRow.failed dead next)
      (fun _ => rfl) (fun _ => ⟨rfl, rfl, rfl, rfl⟩) hrow
    rcases Data.failEvent_cases limits hfail with rfl | ⟨_, hadds, -⟩
    · exact ⟨row', hrow', hsame⟩
    · exact ⟨row', hadds.get?_of_get? hrow', hsame⟩
  | plain hadd | child _ hadd =>
    obtain ⟨-, ⟨⟩⟩ := Option.dite_none_right_eq_some.mp hadd
    exact ⟨row, hrow, .refl row⟩
  | emitted _ hadds | requested hadds => exact ⟨row, hadds.get?_of_get? hrow, .refl row⟩

variable {new : CausedExecution}

lemma Data.deliveries_of_addExecution (h : s.addExecution new = some s') :
    s'.deliveries = s.deliveries := by
  obtain ⟨-, ⟨⟩⟩ := Option.dite_none_right_eq_some.mp h
  rfl

lemma Data.executions_of_failEvent
    (h : s.failEvent id dead next organizationId eventType code diagnosticId = some s') :
    s'.executions = s.executions ∧ s'.deliveries = s.deliveries := by
  rcases Data.failEvent_cases ⟨0, 1, le_rfl⟩ h with rfl | ⟨_, hadds, -⟩
  · exact ⟨rfl, rfl⟩
  · exact ⟨hadds.executions, hadds.deliveries⟩

/-- No execution is lost or changed. -/
lemma Effect.execution_kept (h : Effect settings limits w event s') {row : CausedExecution}
    (hrow : w.shared.executions.get? id = some row) : s'.executions.get? id = some row := by
  cases h with
  | idle _ _ _ hexecutions => exact hexecutions ▸ hrow
  | claim | matched | skipped | adopted | finished => exact hrow
  | created _ _ _ _ hfresh => exact Table.get?_insert_of_get? hfresh hrow
  | failed hfail => exact (Data.executions_of_failEvent hfail).1 ▸ hrow
  | plain hadd | child _ hadd =>
    obtain ⟨hfresh, ⟨⟩⟩ := Option.dite_none_right_eq_some.mp hadd
    exact Table.get?_insert_of_get? hfresh hrow
  | emitted _ hadds | requested hadds => exact hadds.executions ▸ hrow

/-- An execution that was not there before is the one for a delivery, or has none. -/
lemma Effect.execution_cases (h : Effect settings limits w event s') {row' : CausedExecution}
    (hrow' : s'.executions.get? id = some row') :
    w.shared.executions.get? id = some row' ∨
      (∃ i new, event = .perform i (.createExecution new) (.ok id) ∧ row' = new.execution id) ∨
      (∃ organizationId workflowId workflowVersionId,
        row' = plainExecution id organizationId workflowId workflowVersionId) ∨
      ∃ parentId parent workflowId workflowVersionId,
        w.shared.executions.get? parentId = some parent ∧
          row' = parent.child id workflowId workflowVersionId := by
  cases h with
  | idle _ _ _ hexecutions => exact .inl (hexecutions ▸ hrow')
  | claim | matched | skipped | adopted | finished => exact .inl hrow'
  | created _ _ _ _ hfresh =>
    rcases Table.insert_cases hfresh hrow' with ⟨rfl, rfl⟩ | hold
    · exact .inr (.inl ⟨_, _, rfl, rfl⟩)
    · exact .inl hold
  | failed hfail => exact .inl ((Data.executions_of_failEvent hfail).1 ▸ hrow')
  | plain hadd =>
    obtain ⟨hfresh, heq⟩ := Option.dite_none_right_eq_some.mp hadd
    cases heq
    rcases Table.insert_cases hfresh hrow' with ⟨rfl, rfl⟩ | hold
    · exact .inr (.inr (.inl ⟨_, _, _, rfl⟩))
    · exact .inl hold
  | child hparent hadd =>
    obtain ⟨hfresh, heq⟩ := Option.dite_none_right_eq_some.mp hadd
    cases heq
    rcases Table.insert_cases hfresh hrow' with ⟨rfl, rfl⟩ | hold
    · exact .inr (.inr (.inr ⟨_, _, _, _, hparent, rfl⟩))
    · exact .inl hold
  | emitted _ hadds | requested hadds => exact .inl (hadds.executions ▸ hrow')

end Kept

end Flowmind.InternalEvents
