import Flowmind.Context.Services

/-!
# A run and its contexts

The main loop, the loop over a list of steps and what is around them keep to `frameProtocol`
(`meets_run`): where a configuration is resolved, the context of the path of its step has the
results it should have.

Between a step that is done and its result in the context of the execution, a run may find that it
has lost the lease; nothing is resolved after that.
-/

namespace Flowmind

open Program Eng

variable {p : Platform} {e : String} {allowed : ContextId → String → Prop}

/-- The frame of the main loop. -/
def rootFrame : OwnFrame := ⟨.execution, rootPath⟩

/-- The program keeps to the protocol; unless it fails, the main loop can go on. -/
def Runs (e : String) (allowed : ContextId → String → Prop) {α : Type} (program : Eng α) : Prop :=
  ∀ v, v.In rootFrame →
    Meets (frameProtocol e allowed) (fun v' _ => v'.In rootFrame) (fun _ _ => True) program v

namespace Runs

variable {α β : Type} {program : Eng α}

lemma of_keeps (h : Keeps e allowed rootFrame program) : Runs e allowed program :=
  fun v hin => (h v hin).mono (fun _ _ hsince => hsince.in hin) fun _ _ _ => trivial

lemma ret (a : α) : Runs e allowed (.ret a) := of_keeps (.ret a)

lemma fail (failure : Failure) : Runs e allowed (.fail failure : Eng α) := fun _ _ => trivial

lemma bind {f : α → Eng β} (h : Runs e allowed program) (hf : ∀ a, Runs e allowed (f a)) :
    Runs e allowed (program.bind f) :=
  fun v hin => (h v hin).bind fun v' a hin' => hf a v' hin'

lemma loop {τ : Type} {stuck : Eng α} {body : τ → Eng (τ ⊕ α)} (hstuck : Runs e allowed stuck)
    (hbody : ∀ t, Runs e allowed (body t)) (fuel : ℕ) (t : τ) :
    Runs e allowed (Prog.loop stuck body fuel t) := by
  intro v hin
  refine Meets.loop (fun _ v' _ => v'.In rootFrame) (fun v' _ hin => hstuck v' hin)
    (fun _ v' t hin => (hbody t v' hin).mono (fun _ r h => ?_) fun _ _ h => h) fuel v t hin
  cases r <;> exact h

/-- What comes after a part that may have finished a step. -/
lemma of_finishes {id : StepId} {finished : α → Bool} {f : α → Eng β}
    (h : Finishes e allowed rootFrame id finished program)
    (hf : ∀ v₀ v a, v₀.In rootFrame → FrameView.Finishing rootFrame id (finished a) v₀ v →
      Meets (frameProtocol e allowed) (fun v' _ => v'.In rootFrame) (fun _ _ => True) (f a) v) :
    Runs e allowed (program.bind f) :=
  fun v hin => Meets.bind (fun v' a hfinishing => hf v v' a hin hfinishing)
    ((h v hin).mono (fun _ _ h => h) fun _ _ _ => trivial)

/-- What comes after plain statements. -/
lemma of_plain {post : α → Prop} {f : α → Eng β} (h : OfPlain e post program)
    (hf : ∀ a, post a → Runs e allowed (f a)) : Runs e allowed (program.bind f) := by
  refine fun v hin => Meets.bind ?_ ((meets_plain h v).mono (fun _ _ h => h) fun _ _ _ => trivial)
  rintro _ a ⟨rfl, ha⟩
  exact hf a ha _ hin

end Runs

section Finishing

variable {α β : Type} {id : StepId} {finished : Bool} {v₀ v : FrameView}

/-- What comes after a part that did not finish its step. -/
lemma runs_since {program : Eng α} (hin : v₀.In rootFrame)
    (h : FrameView.Finishing rootFrame id false v₀ v) (hprogram : Runs e allowed program) :
    Meets (frameProtocol e allowed) (fun v' _ => v'.In rootFrame) (fun _ _ => True) program v :=
  hprogram v (h.since.in hin)

/-- The result of a step of the main loop that may be done. -/
lemma runs_setStepResult {status : StepExecutionStatus} {output : Option Json} {f : Unit → Eng β}
    (hin : v₀.In rootFrame) (h : FrameView.Finishing rootFrame id finished v₀ v)
    (hpath : id.executionPath = rootPath) (hallowed : allowed .execution id.stepKey)
    (hf : Runs e allowed (f ())) :
    Meets (frameProtocol e allowed) (fun v' _ => v'.In rootFrame) (fun _ _ => True)
      ((Eng.setStepResult .execution id.stepKey status output).bind f) v := by
  have hset : Meets (frameProtocol e allowed) (fun v' _ => FrameView.Since rootFrame v₀ v')
      (fun v' _ => FrameView.Since rootFrame v₀ v')
      (Eng.setStepResult .execution id.stepKey status output) v :=
    meets_setStepResult hin h hpath hallowed fun _ => .ret _
  exact Meets.bind (fun v' _ hsince => hf v' (hsince.in hin))
    (hset.mono (fun _ _ h => h) fun _ _ _ => trivial)

/-- The lease is checked in between. -/
lemma runs_assertOwned {f : Unit → Eng β} {post : FrameView → β → Prop}
    (hf : Meets (frameProtocol e allowed) post (fun _ _ => True) (f ()) v) :
    Meets (frameProtocol e allowed) post (fun _ _ => True) (Eng.assertOwned.bind f) v := by
  refine meets_quiet rfl rfl fun (owned : Bool) => ?_
  cases owned with
  | true => exact hf
  | false => trivial

end Finishing

namespace Runner

variable {graph : RuntimeGraph} {step : StepDefinition} {row : StepRow} {β : Type}

variable (hallowed : ∀ key, allowed .execution key)

include hallowed

lemma keeps_skipUnselectedBranches (controlKey selected : String) :
    Keeps e allowed rootFrame (skipUnselectedBranches p e graph controlKey selected) := by
  refine .each fun key _ => ?_
  split
  case h_1 => exact .ret _
  case h_2 step hstep =>
    refine (plain_ensure none).readsRow.bind fun row hid => ?_
    split
    · exact .ret _
    · exact .of_finishes (finishes_skip hid _) fun v₀ v _ hin hfinishing =>
        meets_setStepResult hin hfinishing rfl (hallowed _) fun _ => .ret _

lemma keeps_settleBranches (result : StepResult) :
    Keeps e allowed rootFrame (settleBranches p e graph step result) := by
  unfold settleBranches
  split
  · exact Keeps.bind (.ask rfl) fun _ => keeps_skipUnselectedBranches hallowed _ _
  · exact .ret _

/-- An attempt of a step, and its result. -/
lemma runs_attempted {f : StepOutcome → Eng β} (hid : row.id = ⟨e, step.key, rootPath⟩)
    (hf : ∀ outcome, Runs e allowed (f outcome)) :
    Runs e allowed ((execute p .execution step row).bind fun outcome =>
      Eng.assertOwned.bind fun _ => (keepResult step outcome).bind fun _ =>
        updateContextCache.bind fun _ => f outcome) := by
  have hcache : ∀ outcome, Runs e allowed (updateContextCache.bind fun _ => f outcome) :=
    fun outcome => (Runs.of_keeps (.ask rfl)).bind fun _ => hf outcome
  refine .of_finishes (finishes_execute hid) fun v₀ v outcome hin hfinishing => runs_assertOwned ?_
  cases outcome with
  | completed result => exact runs_setStepResult hin hfinishing rfl (hallowed _) (hcache _)
  | retrying => exact runs_since hin hfinishing (hcache _)
  | durableWait => exact runs_since hin hfinishing (hcache _)

section

variable (hid : row.id = ⟨e, step.key, rootPath⟩)
include hid

lemma runs_runStep : Runs e allowed (runStep p e graph step row) := by
  refine runs_attempted hallowed hid fun outcome => ?_
  cases outcome with
  | retrying => exact .of_keeps plain_leaveWaiting.keeps
  | durableWait => exact .of_keeps plain_leaveWaiting.keeps
  | completed result =>
    refine .of_keeps ?_
    dsimp only
    split
    · exact Keeps.bind (.ask rfl) fun _ => plain_reload.keeps.bind fun _ =>
        Keeps.bind (.ask rfl) fun _ => .ret _
    · exact (keeps_settleBranches hallowed result).bind fun _ => plain_reload.keeps.bind fun current =>
        plain_leaveDone.keeps

lemma runs_attempt (current : LoadedExecution) :
    Runs e allowed (attempt p e graph current step row) := by
  unfold attempt
  split
  · exact .fail _
  split
  · exact .of_keeps plain_leaveDone.keeps
  · exact runs_runStep hallowed hid

/-- A step of the main loop that has a handler. -/
lemma runs_plainStep (current : LoadedExecution) :
    Runs e allowed (plainStep p e graph current step row) := by
  refine Runs.bind (.of_keeps (.ask rfl)) fun t => ?_
  split
  · exact .of_keeps plain_leaveWaiting.keeps
  split
  · refine .of_finishes (finishes_completeWait hid) fun v₀ v _ hin hfinishing =>
      runs_setStepResult hin hfinishing rfl (hallowed _) ?_
    refine Runs.bind (.of_keeps (.ask rfl)) fun _ => Runs.of_plain plain_reload fun current hcurrent => ?_
    split
    · exact .fail _
    case h_2 row' hrow' =>
      obtain ⟨hmem, hid'⟩ := mem_of_rootRow hrow'
      exact runs_attempt hallowed (by rw [hid', hcurrent row' hmem]) current
  · exact runs_attempt hallowed hid current

end

/-- A service, what is cached, and its result. -/
lemma runs_served {call : Eng ServiceOutcome} {f : ServiceOutcome → Eng β}
    (hcall : Finishes e allowed rootFrame ⟨e, step.key, rootPath⟩ ServiceOutcome.isCompleted call)
    (hwaiting : ∀ nextRetryAt waitReason, Runs e allowed (f (.waiting nextRetryAt waitReason)))
    {g : Json → Unit → Eng β} (hcompleted : ∀ output, Runs e allowed (g output ()))
    (hf : ∀ output, f (.completed output) =
      (setStepResult .execution step.key .completed (some output)).bind (g output)) :
    Runs e allowed (call.bind fun outcome => updateContextCache.bind fun _ => f outcome) := by
  refine .of_finishes hcall fun v₀ v outcome hin hfinishing => meets_quiet rfl rfl fun _ => ?_
  cases outcome with
  | waiting => exact runs_since hin hfinishing (hwaiting _ _)
  | completed output =>
    rw [hf]
    exact runs_setStepResult hin hfinishing rfl (hallowed _) (hcompleted output)

section Control

variable (hbelow : AllowedBelow allowed rootPath.length)

include hbelow

omit hallowed in
/-- A loop of the main loop. -/
lemma finishes_forEach {input : ForEachInput} (hid : input.row.id = ⟨e, step.key, rootPath⟩)
    (hpath : input.parentPath = rootPath) (depth : ℕ) :
    Finishes e allowed rootFrame ⟨e, step.key, rootPath⟩ ServiceOutcome.isCompleted
      ((services p e graph depth).forEach input) := by
  cases depth with
  | zero => exact .exhausted _
  | succ depth =>
    rw [← hid, rootFrame, ← hpath]
    exact ForEach.finishes_execute (hpath ▸ le_rfl) hbelow (serves_services graph depth _ hbelow).1

/-- A try block of the main loop. -/
lemma finishes_tryCatch {input : TryInput} (hid : input.row.id = ⟨e, step.key, rootPath⟩)
    (hpath : input.parentPath = rootPath) (hcontext : input.parentContext = .execution) (depth : ℕ) :
    Finishes e allowed rootFrame ⟨e, step.key, rootPath⟩ ServiceOutcome.isCompleted
      ((services p e graph depth).tryCatch input) := by
  cases depth with
  | zero => exact .exhausted _
  | succ depth =>
    rw [← hid, rootFrame, ← hpath, ← hcontext]
    exact TryCatch.finishes_execute (fun key _ => hcontext ▸ hallowed key) (hpath ▸ hbelow)
      (serves_services graph depth _ (hpath ▸ hbelow)).2

section

variable (hid : row.id = ⟨e, step.key, rootPath⟩) (current : LoadedExecution) (depth : ℕ)
include hid

lemma runs_loopStep :
    Runs e allowed (loopStep e graph (services p e graph depth) current step row) := by
  unfold loopStep
  split
  · split
    · exact .fail _
    split
    · exact .of_keeps ((Keeps.setStepResult (hallowed _) _ _).bind fun _ => plain_leave.keeps)
    exact runs_served hallowed (finishes_forEach hbelow hid rfl depth)
      (fun _ _ => .of_keeps plain_leaveWaiting.keeps)
      (fun _ => .of_keeps (plain_reload.keeps.bind fun _ => plain_leave.keeps)) fun _ => rfl
  · exact .fail _

lemma runs_tryStep :
    Runs e allowed (tryStep e graph (services p e graph depth) current step row) := by
  unfold tryStep
  split
  · split
    · exact .of_keeps ((Keeps.setStepResult (hallowed _) _ _).bind fun _ => plain_leave.keeps)
    exact runs_served hallowed (finishes_tryCatch hallowed hbelow hid rfl rfl depth)
      (fun _ _ => .of_keeps plain_leaveWaiting.keeps)
      (fun _ => .of_keeps (plain_reload.keeps.bind fun _ => plain_leave.keeps)) fun _ => rfl
  · exact .fail _

end

omit hbelow in
lemma runs_subworkflowStep (hid : row.id = ⟨e, step.key, rootPath⟩) :
    Runs e allowed (subworkflowStep p e graph step row) :=
  runs_served hallowed (Subworkflow.finishes_execute hid e)
    (fun _ _ => .of_keeps plain_leaveWaiting.keeps)
    (fun _ => .of_keeps (plain_reload.keeps.bind fun _ => plain_leave.keeps)) fun _ => rfl

/-- One round of the main loop. -/
lemma runs_rootStep (position : Position) (depth : ℕ) :
    Runs e allowed (rootStep p e graph (services p e graph depth) position) := by
  unfold rootStep
  split
  · exact .ret _
  refine Runs.bind (.of_keeps (.ask rfl)) fun _ => ?_
  split
  · exact .of_keeps (Keeps.bind (.ask rfl) fun _ => .ret _)
  refine Runs.bind (.of_keeps plain_assertOwned.keeps) fun _ => ?_
  split
  · exact .fail _
  split
  · exact .of_keeps ((Keeps.setStepResult (hallowed _) _ _).bind fun _ => plain_leave.keeps)
  refine .of_plain (plain_ensure none) fun row hid => ?_
  split
  · exact .of_plain plain_hydrate fun _ hsame => runs_loopStep hallowed hbelow (hsame.trans hid) _ depth
  · exact .of_plain plain_hydrate fun _ hsame => runs_tryStep hallowed hbelow (hsame.trans hid) _ depth
  · exact runs_subworkflowStep hallowed hid
  · exact runs_plainStep hallowed hid _

lemma runs_runGraph (current : LoadedExecution) : Runs e allowed (runGraph p e graph current) := by
  unfold runGraph
  split
  · exact .fail _
  refine Runs.bind (.loop (.of_keeps (.exhausted _)) (fun position =>
    runs_rootStep hallowed hbelow position _) _ _) fun exit => ?_
  split
  · exact .ret _
  · exact .of_keeps plain_complete.keeps

end Control

/-- One step of a list. -/
lemma runs_linearStep (position : LinearPosition) : Runs e allowed (linearStep p e step position) := by
  unfold linearStep
  split
  · exact .of_keeps (Keeps.bind (.ask rfl) fun _ => .ret _)
  refine Runs.bind (.of_keeps plain_assertOwned.keeps) fun _ => ?_
  split
  · exact .ret _
  split
  · exact .of_keeps ((Keeps.setStepResult (hallowed _) _ _).bind fun _ => .ret _)
  refine .of_plain (plain_ensure none) fun row hid => ?_
  split
  · exact .ret _
  split
  · exact .ret _
  refine Runs.bind (.of_keeps (.ask rfl)) fun t => ?_
  split
  · exact .of_keeps (plain_suspend.keeps.bind fun _ => .ret _)
  split
  · exact .fail _
  split
  · refine .of_finishes (finishes_skip hid _) fun v₀ v _ hin hfinishing =>
      runs_setStepResult hin hfinishing rfl (hallowed _) (.of_keeps ?_)
    exact Keeps.bind (.ask rfl) fun _ => plain_reload.keeps.bind fun _ => .ret _
  refine runs_attempted hallowed hid fun outcome => ?_
  cases outcome with
  | retrying => exact .of_keeps (plain_suspend.keeps.bind fun _ => .ret _)
  | durableWait => exact .of_keeps (plain_suspend.keeps.bind fun _ => .ret _)
  | completed result => exact .of_keeps (plain_reload.keeps.bind fun _ => .ret _)

lemma runs_runLinear (steps : List StepDefinition) (position : LinearPosition) :
    Runs e allowed (runLinear p e steps position) := by
  induction steps generalizing position with
  | nil => exact .of_keeps plain_complete.keeps
  | cons step steps ih =>
    refine (runs_linearStep hallowed position).bind fun next => ?_
    cases next with
    | inl position => exact ih position
    | inr result => exact .ret _

/-- The steps of an execution: at first its context takes their results. -/
lemma meets_runSteps (hbelow : AllowedBelow allowed rootPath.length) {v : FrameView} (hvalid : v.Valid) :
    Meets (frameProtocol e allowed) (fun _ _ => True) (fun _ _ => True) (runSteps p e) v := by
  refine meets_passive hvalid rfl fun (loaded : Option LoadedExecution) _ => ?_
  cases loaded with
  | none => trivial
  | some current =>
    refine ⟨⟨by simp [Statement.resolves], by simp⟩, fun _ _ => ?_⟩
    have hin : (v.take .execution rootPath (rootResults p e current)).In rootFrame :=
      ⟨hvalid.take _ _ _, FrameView.owner_take ..⟩
    refine Meets.mono (fun _ _ _ => trivial) (fun _ _ h => h) ((?_ : Runs e allowed _) _ hin)
    split
    · split
      · exact .fail _
      · exact runs_runGraph hallowed hbelow current
    · exact runs_runLinear hallowed _ _

end Runner

/-! ## A run -/

/-- The program resolves nothing and puts nothing into a context. -/
def Quiet (e : String) (allowed : ContextId → String → Prop) {α : Type} (program : Eng α) : Prop :=
  ∀ v, Meets (frameProtocol e allowed) (fun _ _ => True) (fun _ _ => True) program v

/-- What is done about an error. -/
lemma quiet_recover (execution : ExecutionRow) (failure : Failure) :
    Quiet e allowed (Runner.recover e execution failure) := fun v =>
  (meets_plain (Runner.plain_recover execution failure) v).mono (fun _ _ _ => trivial)
    fun _ _ _ => trivial

/-- **A run keeps to the protocol.** -/
lemma meets_run (p : Platform) (e : String) :
    Meets (frameProtocol e fun _ _ => True) (fun _ _ => True) (fun _ _ => True) (run p e)
      FrameView.initial := by
  have hvalid : FrameView.initial.Valid := fun _ _ howner => nomatch howner
  refine meets_passive hvalid rfl fun (acquired : Bool) _ => ?_
  cases acquired with
  | false => trivial
  | true =>
    refine meets_passive hvalid rfl fun (loaded : Option LoadedExecution) _ => ?_
    cases loaded with
    | none => trivial
    | some loaded =>
      refine Meets.ite ?_ ?_
      · exact meets_passive hvalid rfl fun _ _ => trivial
      · refine meets_passive hvalid rfl fun _ _ => meets_passive hvalid rfl fun _ _ => ?_
        exact Meets.handle (fun v failure _ => quiet_recover loaded.row failure v)
          (Runner.meets_runSteps (fun _ => trivial) (fun _ _ _ => ⟨trivial, trivial⟩) hvalid)

end Flowmind
