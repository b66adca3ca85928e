import Flowmind.Nesting.Subworkflows

/-!
# The return value of a run

A run that finishes a `return_workflow_output` step writes the row of the step, and only then the
output of the execution.  A later run finds the step done and completes the execution without the
second write.

* `returnProtocol` — between the two writes a run checks its lease and writes its context, nothing
  else.
* `KeptStep` — nobody interferes between the two writes, and return steps are steps of the main
  loop.
* `completed_keeps_return` — then a completed execution has the output of its last return step.
* `return_lost` — a worker that crashes between the two writes loses the output.
-/

namespace Flowmind

open Program Store

/-! ## Return steps -/

/-- The step is a `return_workflow_output` step of a graph. -/
def Platform.isReturn (p : Platform) (id : StepId) : Bool :=
  (p.graph id.executionId).isSome &&
    (p.step? id).any fun step => Decidable.decide (step.type = .returnWorkflowOutput)

/-- It is one of the main loop, as graphs that are accepted have them. -/
def Platform.isMainReturn (p : Platform) (id : StepId) : Bool :=
  p.isReturn id && Decidable.decide (id.executionPath = rootPath)

/-- The output of the return step that a statement finishes. -/
def Statement.returned (p : Platform) : Statement → Option (Option Json)
  | .writeStep row (.complete result _ _) => if p.isReturn row.id then some result.output else none
  | _ => none

variable {statement : Statement}

lemma Statement.eq_of_returned {p : Platform} {output : Option Json}
    (h : statement.returned p = some output) :
    ∃ row result written t, statement = .writeStep row (.complete result written t) ∧
      p.isReturn row.id = true ∧ result.output = output := by
  unfold returned at h
  split at h
  · split_ifs at h with hreturn
    exact ⟨_, _, _, _, rfl, hreturn, Option.some.inj h⟩
  · cases h

/-- The same for an event, for one execution. -/
def Event.returned (p : Platform) (e : String) : Event → Option (Option Json)
  | .statement job made _ => if job.executionId = e then made.returned p else none
  | _ => none

/-- The output of the return step that was finished last. -/
def lastReturn (p : Platform) (e : String) (events : List Event) : Option (Option Json) :=
  (events.filterMap (Event.returned p e)).getLast?

lemma lastReturn_snoc (p : Platform) (e : String) (events : List Event) (event : Event) :
    lastReturn p e (events ++ [event]) = (event.returned p e).or (lastReturn p e events) := by
  unfold lastReturn
  cases h : event.returned p e <;> simp [h]

/-! ## Between the two writes -/

/-- The output of a step of the main loop that is finished and whose output is not yet that of the
execution. -/
abbrev ReturnView : Type := Option (Option Json)

def ReturnView.next (p : Platform) (v : ReturnView) :
    (statement : Statement) → Answer statement → ReturnView
  | .writeStep row (.complete result _ _), _ =>
    if p.isMainReturn row.id then some result.output else v
  | .writeOutput _, _ => none
  -- A run that has lost its lease ends.
  | .assertOwned, (owned : Bool) => if owned then v else none
  | _, _ => v

/-- Between the two writes. -/
inductive ReturnView.Allows (output : Option Json) : Statement → Prop where
  | assertOwned : Allows output .assertOwned
  | setStepResult {context : ContextId} {stepKey : String} {result : ContextStep} :
      Allows output (.setStepResult context stepKey result)
  | writeContext : Allows output .writeContext
  | writeOutput : Allows output (.writeOutput output)

/-- The output of the execution is written after a return step, and nothing comes in between. -/
def returnProtocol (p : Platform) (e : String) : Protocol Statement Answer ReturnView where
  ok v statement := match v with
    | none => ∀ output, statement ≠ .writeOutput output
    | some output => ReturnView.Allows output statement
  rely := answersFor e
  next := ReturnView.next p

variable {p : Platform} {e : String} {α : Type} {step : StepDefinition} {row : StepRow}

/-- No return step is left half done. -/
abbrev Undivided {α : Type} (p : Platform) (e : String) (program : Eng α) : Prop :=
  Meets (returnProtocol p e) (fun v _ => v = none) (fun v _ => v = none) program none

/-- A statement that finishes no return step, while none is half done. -/
lemma returnProtocol_of_none (houtput : ∀ output, statement ≠ .writeOutput output)
    (hfinish : ∀ row result output t, statement = .writeStep row (.complete result output t) →
      p.isMainReturn row.id = false) :
    (returnProtocol p e).ok none statement ∧ ∀ answer, (returnProtocol p e).rely statement answer →
      (returnProtocol p e).next none statement answer = none := by
  refine ⟨houtput, fun answer _ => ?_⟩
  cases statement with
  | writeStep row write =>
    cases write with
    | complete result output t => exact if_neg (by rw [hfinish row result output t rfl]; simp)
    | _ => rfl
  | assertOwned =>
    cases answer with
    | true | false => rfl
  | _ => rfl

/-- An attempt of any other step. -/
lemma undivided_execute (hreturn : p.isMainReturn row.id = false) (context : ContextId) :
    Undivided p e (execute p context step row) := by
  refine (ofAttempt_execute.meets (fun v => v = none) (fun _ _ h => h) ?_ (fun h => h.elim) none
    rfl).mono (fun _ _ h => h.1) fun _ _ h => h
  rintro _ statement rfl hallowed
  refine returnProtocol_of_none ?_ ?_
  · rintro output rfl
    cases hallowed
  · rintro row' result output t rfl
    simp only [Statement.isOfAttempt, Bool.and_eq_true, decide_eq_true_eq] at hallowed
    rw [hallowed.1, hreturn]

lemma undivided_subworkflow (context : ContextId) :
    Undivided p e (Subworkflow.execute p e context step row) := by
  refine (Subworkflow.ofSubworkflow_execute.meets (fun v => v = none) (fun _ _ h => h) ?_
    (fun h => h.elim) none rfl).mono (fun _ _ h => h.1) fun _ _ h => h
  rintro _ statement rfl hallowed
  refine returnProtocol_of_none ?_ ?_
  · rintro output rfl
    cases hallowed
  · rintro row' result output t rfl
    simp [Statement.isOfSubworkflow, StepWrite.isOfSubworkflow] at hallowed

/-! ## A return step -/

/-- What a return step is completed with is not yet the output of the execution. -/
abbrev HalfDone (p : Platform) (e : String) (program : Eng StepOutcome) : Prop :=
  Meets (returnProtocol p e)
    (fun v outcome => match outcome with
      | .completed result => v = some result.output
      | _ => v = none)
    (fun v _ => v = none) program none

lemma halfDone_recordFailure (attempt : ℕ) (failure : Failure) :
    HalfDone p e (recordFailure p step row attempt failure) := by
  refine .step (fun _ => nofun) fun (t : ℕ) _ => .step (fun _ => nofun) fun _ _ => ?_
  split <;> exact rfl

lemma halfDone_recordResult (hreturn : p.isMainReturn row.id = true) (result : StepResult) :
    HalfDone p e (recordResult p row result) := by
  refine .step (fun _ => nofun) fun (t : ℕ) _ => ?_
  split
  · exact .step (fun _ => nofun) fun _ _ => rfl
  · split
    · exact .step (fun _ => nofun) fun _ _ => rfl
    · exact .step (fun _ => nofun) fun _ _ => if_pos hreturn

lemma undivided_runHandler (context : ContextId) (attempt : ℕ) :
    Undivided p e (runHandler p context step row attempt) := by
  have hconfig : Undivided p e (configFor context step row) := by
    unfold configFor
    split
    · exact rfl
    · exact .step (fun _ => nofun) fun config _ => .ofExcept (fun _ _ => rfl) fun _ _ => rfl
  refine hconfig.bind fun v config hv => ?_
  subst hv
  refine .step (fun _ => nofun) fun _ _ => .step (fun _ => nofun) fun (decision : Decision) _ => ?_
  cases decision with
  | error failure => exact rfl
  | mock result =>
    change Undivided p e (if _ then _ else _)
    split <;> exact rfl
  | runReal =>
    change Undivided p e (if _ then _ else _)
    split
    · exact .step (fun _ => nofun) fun config _ => .ofExcept (fun _ _ => rfl) fun _ _ => rfl
    · exact rfl

lemma halfDone_execute (hreturn : p.isMainReturn row.id = true) (context : ContextId) :
    HalfDone p e (execute p context step row) := by
  refine .step (fun _ => nofun) fun (t : ℕ) _ => .step (fun _ => nofun) fun _ _ => ?_
  refine Meets.handle (fun v failure hv => ?_)
    ((undivided_runHandler context _).bind fun v result hv => ?_)
  · subst hv
    exact halfDone_recordFailure _ _
  · subst hv
    exact halfDone_recordResult hreturn result

namespace Runner

variable {graph : RuntimeGraph} {program : Eng α}

lemma undivided_of_scope {scope : Scope} {post : α → Prop} (h : InScope p e scope post program)
    (houtput : scope.output = false) (hattempt : ∀ {step row}, scope.Calls p e step row →
      (scope.steps = true → p.graph e = none ∨ rootPath.length < row.id.executionPath.length) →
      p.isMainReturn row.id = false)
    (hrunStep : ∀ {graph step row}, scope.steps = true → p.graph e = some graph →
      scope.Calls p e step row → row.id.executionPath = rootPath →
      Undivided p e (runStep p e graph step row)) : Undivided p e program := by
  refine (h.meets (fun v => v = none)
    (fun statement answer (h : (returnProtocol p e).rely statement answer) => h) ?_ ?_ none rfl).mono
    (fun _ _ h => h.1) fun _ _ h => h
  · rintro _ statement rfl hallowed
    refine returnProtocol_of_none (Statement.ne_writeOutput (hallowed.output houtput)) ?_
    rintro row result output t rfl
    cases hallowed.single
  · intro _ _ program hcall v hv
    subst hv
    cases hcall with
    | attempt hcalls hmain => exact undivided_execute (hattempt hcalls hmain) _
    | subworkflow hcalls htype => exact undivided_subworkflow _
    | runStep hsteps hgraph hcalls hpath => exact hrunStep hsteps hgraph hcalls hpath

/-- What is longer than the path of the main loop is not it. -/
lemma isMainReturn_of_lt {id : StepId} (h : rootPath.length < id.executionPath.length) :
    p.isMainReturn id = false := by
  have hpath : id.executionPath ≠ rootPath := by
    intro hpath
    rw [hpath] at h
    exact lt_irrefl _ h
  simp [Platform.isMainReturn, hpath]

lemma undivided_of_main (h : InScope p e (.service rootPath) Any program) : Undivided p e program :=
  undivided_of_scope h rfl (fun hcalls _ => isMainReturn_of_lt hcalls.path) nofun

/-- Between the two writes of a return step. -/
lemma undivided_runStep (hgraph : p.graph e = some graph) (hexecution : row.id.executionId = e)
    (hpath : row.id.executionPath = rootPath) (hstep : p.step? row.id = some step) :
    Undivided p e (runStep p e graph step row) := by
  have hreturn : p.isMainReturn row.id = Decidable.decide (step.type = .returnWorkflowOutput) := by
    simp [Platform.isMainReturn, Platform.isReturn, hexecution, hgraph, hpath, hstep]
  by_cases htype : step.type = .returnWorkflowOutput
  · refine (halfDone_execute (by rw [hreturn, htype]; rfl) _).bind fun v outcome hv => ?_
    cases outcome with
    | completed result =>
      subst hv
      refine .step .assertOwned fun (owned : Bool) _ => ?_
      cases owned with
      | false => exact rfl
      | true =>
        refine .step .setStepResult fun _ _ => .step .writeContext fun _ _ => ?_
        dsimp only
        rw [if_pos htype]
        refine .step .writeOutput fun _ _ => undivided_of_main (plain_reload.inScope.andThen fun _ =>
          plain_route.inScope.andThen fun _ => .ret trivial)
    | retrying | durableWait =>
      subst hv
      exact undivided_of_main (plain_assertOwned.inScope.andThen fun _ => (inScope_keepResult _).andThen fun _ =>
        plain_updateContextCache.inScope.andThen fun _ => plain_leaveWaiting.inScope)
  · refine (undivided_execute (by rw [hreturn, decide_eq_false htype]) _).bind fun v outcome hv => ?_
    subst hv
    refine undivided_of_main (plain_assertOwned.inScope.andThen fun _ => (inScope_keepResult _).andThen fun _ =>
      plain_updateContextCache.inScope.andThen fun _ => ?_)
    cases outcome with
    | completed result =>
      dsimp only
      rw [if_neg htype]
      exact (inScope_settleBranches result).andThen fun _ => plain_reload.inScope.andThen fun current =>
        plain_leaveDone.inScope
    | retrying | durableWait => exact plain_leaveWaiting.inScope

end Runner

/-- **A run writes the output of the execution right after a return step.** -/
theorem meets_returnProtocol_run (p : Platform) (e : String) : Undivided p e (run p e) := by
  refine Runner.undivided_of_scope inScope_loop_run rfl (fun {step row} hcalls hmain => ?_)
    fun _ hgraph hcalls hpath => Runner.undivided_runStep hgraph hcalls.executionId hpath hcalls.step
  rcases hmain rfl with hlist | hlt
  · simp [Platform.isMainReturn, Platform.isReturn, hcalls.executionId, hlist]
  · exact Runner.isMainReturn_of_lt hlt

/-! ## Runs of the system -/

/-- What a run has finished and not yet written. -/
def ActiveJob.returning (p : Platform) (active : ActiveJob) : ReturnView :=
  (returnProtocol p active.job.executionId).after none active.log

/-- A return step is one of the main loop, and is finished while its execution is not completed.
Until the run has written the output, it goes on, it has the lease, and nobody else makes a
statement for the execution. -/
structure KeptStep (p : Platform) (w : World) (event : Event) (w' : World) : Prop where
  step : WorldStep p w event w'
  main : ∀ job row result output t, ∀ answer : StepRow,
    event = .statement job (.writeStep row (.complete result output t)) answer →
    p.isReturn row.id = true → row.id.executionPath = rootPath
  incomplete : ∀ job row result output t found, ∀ answer : StepRow,
    event = .statement job (.writeStep row (.complete result output t)) answer →
    p.isReturn row.id = true → w.db.executions.get? job.executionId = some found →
    found.status ≠ .completed
  goesOn : ∀ worker active, event = .stop worker → w.jobs worker = some active →
    active.returning p = none
  owned : ∀ job active, ∀ owned : Bool, event = .statement job .assertOwned owned →
    w.jobs job.worker = some active → active.returning p ≠ none → owned = true
  alone : ∀ job statement, ∀ answer : Answer statement, ∀ worker active,
    event = .statement job statement answer → w.jobs worker = some active →
    active.job.executionId = job.executionId → active.returning p ≠ none → worker = job.worker

/-- The output of the last return step is in the row of the execution, or about to be written. -/
structure World.Kept (p : Platform) (events : List Event) (w : World) : Prop where
  returning : ∀ {worker active output}, w.jobs worker = some active →
    active.returning p = some output →
    lastReturn p active.job.executionId events = some output ∧
      ∃ row, w.db.executions.get? active.job.executionId = some row ∧ row.status ≠ .completed
  kept : ∀ {e output}, lastReturn p e events = some output →
    (∃ worker active, w.jobs worker = some active ∧ active.job.executionId = e ∧
      active.returning p ≠ none) ∨
    ∃ row, w.db.executions.get? e = some row ∧ row.outputJson = output

lemma kept_initial : World.initial.Kept p [] where
  returning h := by cases h
  kept h := by cases h

variable {w w' : World} {event : Event} {events : List Event} {worker : String}

section Steps

variable {active : ActiveJob} {k : Answer statement → Eng WorkflowRunResult}

/-- A run writes the output it has returned. -/
lemma World.Valid.returning (hvalid : w.Valid p) (hactive : w.jobs worker = some active)
    (hprogram : active.program = Prog.ask statement k) :
    (returnProtocol p active.job.executionId).ok (active.returning p) statement := by
  have hmeets := (hvalid.jobs hactive).meets (meets_returnProtocol_run p _) answersFor_perform
  rw [hprogram] at hmeets
  exact hmeets.1

lemma ActiveJob.returning_next (active : ActiveJob) (program : Eng WorkflowRunResult)
    (statement : Statement) (answer : Answer statement) :
    (active.next program statement answer).returning p =
      ReturnView.next p (active.returning p) statement answer :=
  Protocol.after_snoc ..

variable {answer : Answer statement} {output : Option Json}

/-- Whoever finishes a return step is in between the two writes. -/
lemma KeptStep.next_of_returned (hstep : KeptStep p w event w') {job : Job}
    (hevent : event = .statement job statement answer)
    (hreturned : statement.returned p = some output) (v : ReturnView) :
    ReturnView.next p v statement answer = some output := by
  obtain ⟨row, result, written, t, rfl, hreturn, rfl⟩ := Statement.eq_of_returned hreturned
  have hpath := hstep.main job row result written t answer hevent hreturn
  exact if_pos (by simp [Platform.isMainReturn, hreturn, hpath])

/-- The output of an execution changes only when it is written. -/
lemma WorldStep.output_cases (hstep : WorldStep p w event w') {row : ExecutionRow}
    (hrow : w.db.executions.get? e = some row) :
    ∃ row', w'.db.executions.get? e = some row' ∧ (row'.outputJson = row.outputJson ∨
      ∃ job, ∃ answer : Unit, event = .statement job (.writeOutput row'.outputJson) answer ∧
        job.executionId = e) := by
  obtain ⟨now, -, row', hrow', rfl | ⟨happlies, rfl⟩⟩ := hstep.execution_cases hrow
  · exact ⟨row', hrow', .inl rfl⟩
  · refine ⟨_, hrow', ?_⟩
    cases event with
    | statement job made answer =>
      cases made with
      | writeOutput output =>
        refine .inr ⟨job, answer, rfl, ?_⟩
        rw [← of_decide_eq_true happlies, Database.id_of_get? hrow]
      | _ => exact .inl rfl
    | passStatement worker made answer => cases made <;> exact .inl rfl
    | api write =>
      cases write with
      | decideApproval stepExecutionId approved =>
        left
        simp only [Event.onExecution, ApiWrite.onExecution]
        split <;> rfl
      | _ => exact .inl rfl
    | _ => exact .inl rfl

/-- Only a run of an execution completes it. -/
lemma WorldStep.ne_completed (hstep : WorldStep p w event w') {row : ExecutionRow}
    (hrow : w.db.executions.get? e = some row) (hne : row.status ≠ .completed)
    (hother : ∀ job t, ∀ answer : ℕ, event = .statement job (.transitionTerminal none t) answer →
      job.executionId ≠ e) :
    ∃ row', w'.db.executions.get? e = some row' ∧ row'.status ≠ .completed := by
  obtain ⟨now, -, row', hrow', hmaybe⟩ := hstep.execution_cases hrow
  refine ⟨row', hrow', fun hcompleted => ?_⟩
  rcases hmaybe.status_cases with hsame | hwrites
  · exact hne (hsame.symm.trans hcompleted)
  · rw [hcompleted] at hwrites
    cases event with
    | statement job made answer =>
      cases made with
      | transitionTerminal failure t =>
        obtain ⟨hid, -, hstatus⟩ := hwrites
        cases failure with
        | none => exact hother job t answer rfl (hid.symm.trans (Database.id_of_get? hrow))
        | some message => cases hstatus
      | acquire | cancelChild => cases hwrites.2
      | markWaiting => cases hwrites.2.2
      | _ => cases hwrites
    | passStatement worker made answer =>
      cases made with
      | recoverExecution | expireApproval | resumeApproved | requeue => cases hwrites.2
      | _ => cases hwrites
    | api write =>
      cases write with
      | create | requestApproval | cancelApproval => cases hwrites
      | _ => cases hwrites.2
    | _ => cases hwrites

/-- While a run is between the two writes, others leave its execution alone. -/
lemma KeptStep.others (hstep : KeptStep p w event w') (h : w.Kept p events)
    (hactive : w.jobs worker = some active) (hreturning : active.returning p = some output)
    (hother : ∀ job statement, ∀ answer : Answer statement, event = .statement job statement answer →
      job.worker ≠ worker) :
    lastReturn p active.job.executionId (events ++ [event]) = some output ∧
      ∃ row, w'.db.executions.get? active.job.executionId = some row ∧ row.status ≠ .completed := by
  have hne : ∀ job statement, ∀ answer : Answer statement, event = .statement job statement answer →
      job.executionId ≠ active.job.executionId := by
    intro job statement answer hevent hexecution
    exact hother job statement answer hevent
      (hstep.alone job statement answer worker active hevent hactive hexecution.symm
        (by simp [hreturning])).symm
  obtain ⟨hlast, row, hrow, hcompleted⟩ := h.returning hactive hreturning
  refine ⟨?_, hstep.step.ne_completed hrow hcompleted fun job t answer hevent =>
    hne job (.transitionTerminal none t) answer hevent⟩
  have hreturned : event.returned p active.job.executionId = none := by
    cases event with
    | statement job made answer => exact if_neg (hne job made answer rfl)
    | _ => rfl
  rw [lastReturn_snoc, hreturned, Option.none_or, hlast]

/-- What a run does between the two writes. -/
lemma KeptStep.between (hstep : KeptStep p w event w') (hvalid : w.Valid p) {oracle : Oracle}
    (hactive : w.jobs worker = some active) (hreturning : active.returning p = some output)
    (hevent : event = .statement active.job statement answer)
    (hprogram : active.program = Prog.ask statement k)
    (hperform : statement.perform p active.job w.clock oracle w.db = some (answer, w'.db)) :
    statement = .writeOutput output ∨
      statement.returned p = none ∧ ReturnView.next p (some output) statement answer = some output ∧
        w'.db = w.db := by
  have hok := hvalid.returning hactive hprogram
  rw [hreturning] at hok
  cases hok with
  | assertOwned =>
    have howned : answer = true := by
      refine hstep.owned active.job active answer hevent ?_ (by simp [hreturning])
      rw [(hvalid.jobs hactive).worker_eq, hactive]
    refine .inr ⟨rfl, if_pos howned, ?_⟩
    exact (Prod.mk.inj (Option.some.inj hperform)).2.symm
  | setStepResult | writeContext =>
    exact .inr ⟨rfl, rfl, (Prod.mk.inj (Option.some.inj hperform)).2.symm⟩
  | writeOutput => exact .inl rfl

/-- Only finishing a return step brings a run between the two writes. -/
lemma Statement.returned_of_next (h : ReturnView.next p none statement answer = some output) :
    statement.returned p = some output := by
  cases statement with
  | writeStep row write =>
    cases write with
    | complete result written t =>
      simp only [ReturnView.next] at h
      split_ifs at h with hreturn
      rw [Platform.isMainReturn, Bool.and_eq_true] at hreturn
      rw [Statement.returned, if_pos hreturn.1, Option.some.inj h]
    | _ => cases h
  | assertOwned => cases answer <;> cases h
  | _ => cases h

/-- The last output of an execution after a statement of its job. -/
lemma lastReturn_statement (job : Job) (statement : Statement) (answer : Answer statement) :
    lastReturn p job.executionId (events ++ [.statement job statement answer]) =
      (statement.returned p).or (lastReturn p job.executionId events) := by
  rw [lastReturn_snoc]
  exact congrArg (Option.or · _) (if_pos rfl)

section

variable (hrun : Run (WorldStep p) World.initial events w) (h : w.Kept p events)
  (hstep : KeptStep p w event w')
include hrun h hstep

lemma KeptStep.returning {active' : ActiveJob} (hactive' : w'.jobs worker = some active')
    (hreturning : active'.returning p = some output) :
    lastReturn p active'.job.executionId (events ++ [event]) = some output ∧
      ∃ row, w'.db.executions.get? active'.job.executionId = some row ∧ row.status ≠ .completed := by
  have hvalid := WorldRun.valid hrun
  rcases hstep.step.jobs_cases hactive' with ⟨hactive, hother⟩ | ⟨job, -, -, rfl, -⟩ |
    ⟨active, statement, k, answer, oracle, hactive, -, rfl, hprogram, hperform, rfl⟩
  · exact hstep.others h hactive hreturning hother
  · cases hreturning
  · rw [ActiveJob.returning_next] at hreturning
    change lastReturn p active.job.executionId _ = _ ∧
      ∃ row, w'.db.executions.get? active.job.executionId = some row ∧ _
    rw [lastReturn_statement]
    cases hview : active.returning p with
    | none =>
      rw [hview] at hreturning
      have hreturned := Statement.returned_of_next hreturning
      refine ⟨by rw [hreturned, Option.some_or], ?_⟩
      obtain ⟨row, result, written, t, rfl, hreturn, -⟩ := Statement.eq_of_returned hreturned
      obtain ⟨found, hfound, -⟩ := WorldRun.exists_of_statement hrun hstep.step (by simp)
      exact hstep.step.ne_completed hfound
        (hstep.incomplete _ row result written t found answer rfl hreturn hfound)
        (by rintro _ _ _ ⟨⟩)
    | some returned =>
      rw [hview] at hreturning
      obtain ⟨hlast, hrow⟩ := h.returning hactive hview
      rcases hstep.between hvalid hactive hview rfl hprogram hperform with rfl | ⟨hnone, hnext, hdb⟩
      · cases hreturning
      · rw [hnone, hlast, hdb, ← hnext, hreturning]
        exact ⟨rfl, hrow⟩

lemma KeptStep.kept (hlast : lastReturn p e (events ++ [event]) = some output) :
    (∃ worker active, w'.jobs worker = some active ∧ active.job.executionId = e ∧
      active.returning p ≠ none) ∨
    ∃ row, w'.db.executions.get? e = some row ∧ row.outputJson = output := by
  have hvalid := WorldRun.valid hrun
  rw [lastReturn_snoc] at hlast
  cases hreturned : event.returned p e with
  | some returned =>
    -- The run that finishes the step is between the two writes now.
    cases event with
    | statement job made answer =>
      rw [Event.returned] at hreturned
      split_ifs at hreturned with hexecution
      obtain ⟨active, program, -, rfl, hnext⟩ := hstep.step.next_of_statement
      refine .inl ⟨_, _, hnext, hexecution, ?_⟩
      rw [ActiveJob.returning_next, hstep.next_of_returned rfl hreturned]
      simp
    | _ => cases hreturned
  | none =>
    rw [hreturned] at hlast
    rcases h.kept hlast with ⟨worker, active, hactive, rfl, hreturning⟩ | ⟨row, hrow, houtput⟩
    · obtain ⟨returned, hview⟩ := Option.ne_none_iff_exists'.mp hreturning
      rcases hstep.step.jobs_of_some hactive with hsame | rfl |
        ⟨statement, k, answer, oracle, hworker, hevent, hprogram, hperform, hnext⟩
      · exact .inl ⟨worker, active, hsame, rfl, hreturning⟩
      · exact absurd (hstep.goesOn worker active rfl hactive) hreturning
      · obtain ⟨hlast', row, hrow, -⟩ := h.returning hactive hview
        rcases hstep.between hvalid hactive hview hevent hprogram hperform with
          rfl | ⟨-, hnext', -⟩
        · right
          obtain ⟨-, hdb⟩ := Prod.mk.inj (Option.some.inj hperform)
          refine ⟨{ row with outputJson := returned }, ?_, Option.some.inj (hlast'.symm.trans hlast)⟩
          rw [← hdb]
          refine Database.get?_updateExecutions.trans ?_
          rw [hrow, Option.map_some, if_pos (decide_eq_true (Database.id_of_get? hrow))]
        · refine .inl ⟨worker, _, hnext, rfl, ?_⟩
          rw [ActiveJob.returning_next, hview, hnext']
          simp
    · obtain ⟨row', hrow', hcases⟩ := hstep.step.output_cases hrow
      refine .inr ⟨row', hrow', ?_⟩
      rcases hcases with hsame | ⟨job, answer, rfl, rfl⟩
      · rw [hsame, houtput]
      · -- Whoever writes an output has returned it.
        obtain ⟨active, k, -, hactive, rfl, hprogram, -⟩ := hstep.step.of_statement
        have hok := hvalid.returning hactive hprogram
        cases hview : active.returning p with
        | none =>
          rw [hview] at hok
          exact absurd rfl (hok _)
        | some returned =>
          rw [hview] at hok
          obtain ⟨hlast', -⟩ := h.returning hactive hview
          cases hok
          exact Option.some.inj (hlast'.symm.trans hlast)

end

lemma kept_of_run (hrun : Run (KeptStep p) World.initial events w) : w.Kept p events := by
  refine hrun.invariant (fun events w => w.Kept p events) kept_initial ?_
  intro events w event w' hrun h hstep
  have hworld := hrun.mono fun _ _ _ h => h.step
  exact ⟨hstep.returning hworld h, hstep.kept hworld h⟩

/-- **A completed run keeps its return value**, if nobody interferes between the two writes: the
output of the execution is that of the return step that was finished last, and this is what the step
of a parent reads. -/
theorem completed_keeps_return (hrun : Run (KeptStep p) World.initial events w) {row : ExecutionRow}
    {output : Option Json} (hrow : w.db.executions.get? e = some row)
    (hcompleted : row.status = .completed) (hlast : lastReturn p e events = some output) :
    row.outputJson = output ∧ ∀ parent child, w.db.latestChild parent = some child → child.id = e →
      child.outputJson = output := by
  have h := kept_of_run hrun
  have houtput : row.outputJson = output := by
    rcases h.kept hlast with ⟨worker, active, hactive, rfl, hreturning⟩ | ⟨row', hrow', houtput⟩
    · obtain ⟨returned, hview⟩ := Option.ne_none_iff_exists'.mp hreturning
      obtain ⟨-, row', hrow', hne⟩ := h.returning hactive hview
      cases hrow.symm.trans hrow'
      exact absurd hcompleted hne
    · rw [Option.some.inj (hrow.symm.trans hrow'), houtput]
  refine ⟨houtput, fun parent child hchild hid => ?_⟩
  have hfound := (Database.latestChild_some hchild).1
  rw [hid, hrow] at hfound
  rw [← Option.some.inj hfound, houtput]

end Steps

/-! ## Small histories -/

/-- A workflow that returns. -/
def returnWorkflow : WorkflowDefinition where
  json := .obj [("workflowDefinitionSchemaVersion", .num 2),
    ("graph", .obj [("entryStepKey", .str "return"), ("edges", .arr [])])]
  steps := ⟨[⟨"return", .returnWorkflowOutput, 1, .obj [("output", .num 1)], none⟩],
    List.nodup_singleton _⟩

/-- The handler of the step returns its output. -/
def returnOracle : Oracle where
  result := .ok { status := .completed, output := some (.num 1), done := isDone_completed }

/-- A worker goes on, with the lease, and no other one begins; a step that is completed is one of the
main loop, and no execution is completed before. -/
def Event.proceeds (worker : String) (w : World) : Event → Bool
  | .stop _ => false
  | .start job => Decidable.decide (job.worker = worker)
  | .statement _ .assertOwned (owned : Bool) => owned
  | .statement _ (.writeStep row (.complete ..)) _ =>
    Decidable.decide (row.id.executionPath = rootPath) &&
      w.db.executions.rows.all fun row => Decidable.decide (row.status ≠ .completed)
  | _ => true

lemma Event.startsOn_of_proceeds (h : event.proceeds worker w = true) :
    event.startsOn worker = true := by
  cases event with
  | start job => exact h
  | _ => rfl

/-- A worker that is alone keeps its return value. -/
lemma KeptStep.of_single (hsingle : w.Single worker) (hstep : WorldStep p w event w')
    (hproceeds : event.proceeds worker w = true) : KeptStep p w event w' where
  step := hstep
  main := by
    rintro job row result output t answer rfl _
    simp only [Event.proceeds, Bool.and_eq_true, decide_eq_true_eq] at hproceeds
    exact hproceeds.1
  incomplete := by
    rintro job row result output t found answer rfl _ hfound
    simp only [Event.proceeds, Bool.and_eq_true, List.all_eq_true, decide_eq_true_eq] at hproceeds
    exact hproceeds.2 found (Table.get?_eq_some_iff.mp hfound).1
  goesOn := by
    rintro stopped active rfl
    cases hproceeds
  owned := by
    rintro job active owned rfl _ _
    exact hproceeds
  alone := by
    rintro job statement answer other active rfl hactive _ _
    obtain ⟨own, -, -, hown, -⟩ := hstep.of_statement
    rw [hsingle other active hactive, hsingle _ own hown]

/-- A worker that runs the workflow to its end. -/
theorem single_run_keeps_return :
    ∃ events w row, Run (KeptStep (trialPlatform returnWorkflow)) World.initial events w ∧
      w.db.executions.get? "run" = some row ∧ row.status = .completed ∧
      ∃ output, lastReturn (trialPlatform returnWorkflow) "run" events = some output ∧
        output.isSome = true ∧ row.outputJson = output := by
  have hscript : (script (actIf (World.act (trialPlatform returnWorkflow)) fun w event =>
      event.proceeds "a" w) World.initial (trialStart "a" ++ statements "a" 30 returnOracle)).any
        (fun done => (∃ row ∈ done.2.db.executions.get? "run", row.status = .completed) ∧
          ∃ output ∈ lastReturn (trialPlatform returnWorkflow) "run" done.1, output.isSome) := by
    decide +kernel
  obtain ⟨events, w, hrun, ⟨row, hrow, hdone⟩, output, hlast, hsome⟩ :=
    World.single_initial.exists_run _ (fun _ _ _ hsingle hstep hproceeds =>
      ⟨KeptStep.of_single hsingle hstep hproceeds, Event.startsOn_of_proceeds hproceeds⟩) hscript
  exact ⟨events, w, row, hrun, hrow, hdone, output, hlast, hsome,
    (completed_keeps_return hrun hrow hdone hlast).1⟩

/-- A worker crashes between the two writes, and another one completes the execution without its
output. -/
theorem return_lost :
    ∃ events w row, Run (WorldStep (trialPlatform returnWorkflow)) World.initial events w ∧
      w.db.executions.get? "run" = some row ∧ row.status = .completed ∧
      ∃ output, lastReturn (trialPlatform returnWorkflow) "run" events = some output ∧
        row.outputJson ≠ output := by
  have hscript : (script (World.act (trialPlatform returnWorkflow)) World.initial
      (trialStart "a" ++ statements "a" 20 returnOracle ++
        [.stop "a", .tick 20, .start (trialJob "b")] ++ statements "b" 16)).any (fun done =>
        (∃ row ∈ done.2.db.executions.get? "run", row.status = .completed ∧ row.outputJson.isNone) ∧
        ∃ output ∈ lastReturn (trialPlatform returnWorkflow) "run" done.1, output.isSome) := by
    decide +kernel
  obtain ⟨events, w, hrun, ⟨row, hrow, hcompleted, hnone⟩, output, hlast, hsome⟩ :=
    World.exists_run hscript
  refine ⟨events, w, row, hrun, hrow, hcompleted, output, hlast, ?_⟩
  rintro rfl
  cases hvalue : row.outputJson with
  | none => simp [hvalue] at hsome
  | some value => simp [hvalue] at hnone

end Flowmind
