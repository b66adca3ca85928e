import Flowmind.Program.Shape
import Flowmind.Protocol.Answers

/-!
# The shape of a run

A run is put together from attempts of steps (`execute`), from calls of the service for subworkflows
and from other statements (`inScope_run`); the same holds for the services.  The calls that a
service makes are for rows whose paths are longer than the path it was called for.

* `Scope`, `EngineCall`, `InScope` — what a part of a run consists of.  In the main loop, the steps of
  a graph (`runStep`) count as calls, too.
* `OfPlain` — a program without calls, which has nothing to do with contexts and finished steps; it
  is part of anything (`OfPlain.inScope`).
* `ofAttempt_execute`, `ofSubworkflow_execute` — what the calls themselves consist of.
* `inScope_services` — loops and try blocks are parts of a run, by induction on how deeply services
  call each other: a loop is one if try blocks are (`ForEach.inScope_execute`), and a try block if
  loops are (`TryCatch.inScope_execute`).
* `inScope_loop_run`, `inScope_run` — the run, first with the steps of the main loop as calls and then
  with these taken apart.

There is one lemma for each program, in the order of the engine's modules; its proof follows the
program.  Results about attempts or about subworkflows alone follow with `Composed.meets`.
-/

namespace Flowmind

open Program Eng

/-! ## Scopes -/

/-- Only attempts, and the service for subworkflows, make such a write. -/
def StepWrite.isOfCall : StepWrite → Bool
  | .start .. | .input _ | .durableWait .. | .wait .. | .complete .. | .fail .. | .childStart ..
  | .childWait _ | .childComplete .. | .childFail .. => true
  | _ => false

/-- Only attempts, and the service for subworkflows, make such a statement; or none does, as the
jobs of the reconciler are left to it. -/
def Statement.isOfCall : Statement → Bool
  | .writeStep _ write => write.isOfCall
  | .enqueue id => id.isRecovery
  | .resolveConfig .. | .decide .. | .invoke .. | .latestChild _ | .countChildren _ | .cancelChild ..
  | .startChild .. | .freshId | .resolveTarget .. => true
  | _ => false

/-- The statement writes the output of the execution. -/
def Statement.writesOutput : Statement → Bool
  | .writeOutput _ => true
  | _ => false

/-- The write completes the step, or skips it. -/
def StepWrite.finishes : StepWrite → Bool
  | .complete .. | .skip .. | .completeWait .. | .loopComplete .. | .tryComplete ..
  | .childComplete .. => true
  | _ => false

/-- The statement changes no context and finishes no step. -/
def Statement.isPassive : Statement → Bool
  | .setSteps .. | .setStepResult .. => false
  | .writeStep _ write => !write.finishes
  | _ => true

/-- The context and the step execution whose configuration a statement resolves. -/
def Statement.resolves : Statement → Option (ContextId × StepRow)
  | .resolveConfig context row _ => some (context, row)
  | .invoke context row _ _ _ => some (context, row)
  | .loopSource row _ => some (.execution, row)
  | _ => none

/-- The statement belongs to no call, and has nothing to do with the contexts and with steps that are
done. -/
def Statement.isPlain (statement : Statement) : Bool :=
  !statement.isOfCall && !statement.writesOutput && statement.isPassive && statement.resolves.isNone

variable {statement : Statement}

lemma Statement.ne_writeOutput (h : statement.writesOutput = false) (output : Option Json) :
    statement ≠ .writeOutput output := by
  rintro rfl
  cases h

/-- Where a part of a run is: how long the paths of the rows of its calls are at least, if it runs
steps of the main loop and if it writes the output of the execution. -/
structure Scope where
  calls : ℕ
  steps : Bool
  output : Bool

/-- The main loop. -/
def Scope.loop : Scope := ⟨0, true, false⟩

/-- A whole run. -/
def Scope.run : Scope := ⟨0, false, true⟩

/-- A service that was called for a path: it makes calls for the steps of its regions, whose paths
are longer. -/
def Scope.service (executionPath : String) : Scope := ⟨executionPath.length + 1, false, false⟩

/-- The other statements of a part of a run. -/
structure Scope.Allows (scope : Scope) (statement : Statement) : Prop where
  single : statement.isOfCall = false
  output : scope.output = false → statement.writesOutput = false

/-- The row of a call. -/
structure Scope.Calls (scope : Scope) (p : Platform) (e : String) (step : StepDefinition)
    (row : StepRow) : Prop where
  executionId : row.id.executionId = e
  step : p.step? row.id = some step
  path : scope.calls ≤ row.id.executionPath.length

/-- The calls of a part of a run.  Apart from those in services and for lists of steps, the attempts
of the main loop are made by `runStep`. -/
inductive EngineCall (p : Platform) (e : String) (scope : Scope) :
    (ε α : Type) → Prog Statement Answer ε α → Prop where
  | attempt {context : ContextId} {step : StepDefinition} {row : StepRow}
      (h : scope.Calls p e step row)
      (hmain : scope.steps = true → p.graph e = none ∨ rootPath.length < row.id.executionPath.length) :
      EngineCall p e scope Failure StepOutcome (execute p context step row)
  | subworkflow {context : ContextId} {step : StepDefinition} {row : StepRow}
      (h : scope.Calls p e step row) (htype : step.type = .executeWorkflow) :
      EngineCall p e scope Failure ServiceOutcome (Subworkflow.execute p e context step row)
  | runStep {graph : RuntimeGraph} {step : StepDefinition} {row : StepRow}
      (hsteps : scope.steps = true) (hgraph : p.graph e = some graph) (h : scope.Calls p e step row)
      (hpath : row.id.executionPath = rootPath) :
      EngineCall p e scope Failure (Runner.Position ⊕ Runner.GraphExit)
        (Runner.runStep p e graph step row)

/-- The program is a part of a run. -/
abbrev InScope (p : Platform) (e : String) (scope : Scope) {ε α : Type} (post : α → Prop)
    (program : Prog Statement Answer ε α) : Prop :=
  Composed (answersFor e) scope.Allows (EngineCall p e scope) post program

/-- The program consists of plain statements. -/
abbrev OfPlain (e : String) {ε α : Type} (post : α → Prop) (program : Prog Statement Answer ε α) :
    Prop :=
  Composed (answersFor e) (fun statement => statement.isPlain = true) (fun _ _ _ => False) post program

/-- Anything is returned. -/
abbrev Any {α : Type} : α → Prop := fun _ => True

variable {p : Platform} {e : String} {scope scope' : Scope} {ε α : Type}

/-- What is part of a service is part of anything around it. -/
lemma InScope.mono {post : α → Prop} {program : Prog Statement Answer ε α}
    (hcalls : scope'.calls ≤ scope.calls) (hsteps : scope.steps = true → scope'.steps = true)
    (hmain : scope'.steps = true → scope.steps = true ∨ rootPath.length < scope.calls)
    (houtput : scope'.output = false → scope.output = false) (h : InScope p e scope post program) :
    InScope p e scope' post program := by
  have hrow : ∀ {step row}, scope.Calls p e step row → scope'.Calls p e step row := fun h =>
    ⟨h.executionId, h.step, hcalls.trans h.path⟩
  refine Composed.mono (fun statement hstatement => ?_) (fun hcall => ?_) h
  · exact ⟨hstatement.single, fun hout => hstatement.output (houtput hout)⟩
  · cases hcall with
    | attempt h hattempt =>
      refine .attempt (hrow h) fun hin => ?_
      rcases hmain hin with hold | hlt
      · exact hattempt hold
      · exact .inr (lt_of_lt_of_le hlt h.path)
    | subworkflow h htype => exact .subworkflow (hrow h) htype
    | runStep hrun hgraph h hpath => exact .runStep (hsteps hrun) hgraph (hrow h) hpath

namespace InScope

variable {post : α → Prop} {program : Prog Statement Answer ε α}

/-- A service that another one calls. -/
lemma within {executionPath executionPath' : String}
    (hpath : executionPath.length ≤ executionPath'.length)
    (h : InScope p e (.service executionPath') post program) :
    InScope p e (.service executionPath) post program := by
  have hcalls : (Scope.service executionPath).calls ≤ (Scope.service executionPath').calls :=
    Nat.succ_le_succ hpath
  exact InScope.mono hcalls nofun nofun (fun _ => rfl) h

/-- A write to a row. -/
lemma writeStep {row : StepRow} {write : StepWrite} (hwrite : write.isOfCall = false) :
    InScope p e scope (fun found => found.id = row.id) (Eng.writeStep row write) :=
  Composed.ask ⟨hwrite, fun _ => rfl⟩ fun _ hid => .ret hid

end InScope

namespace OfPlain

variable {post : α → Prop} {program : Prog Statement Answer ε α}

/-- Plain statements are made everywhere. -/
lemma inScope (h : OfPlain e post program) : InScope p e scope post program := by
  refine h.mono (fun statement hplain => ?_) False.elim
  simp only [Statement.isPlain, Bool.and_eq_true, Bool.not_eq_true'] at hplain
  exact ⟨hplain.1.1.1, fun _ => hplain.1.1.2⟩

lemma free (statement : Statement) (h : statement.isPlain = true) :
    OfPlain e Any (Eng.ask statement) :=
  Composed.ask h fun _ _ => .ret trivial

lemma writeStep {row : StepRow} {write : StepWrite}
    (h : (Statement.writeStep row write).isPlain = true) :
    OfPlain e (fun found => found.id = row.id) (Eng.writeStep row write) :=
  Composed.ask h fun _ hid => .ret hid

lemma exhausted {loop : LoopName} : OfPlain e Any (Eng.exhausted loop : Eng α) :=
  Composed.ask rfl fun answer => nomatch answer

end OfPlain

/-! ## The step executor and what the services share -/

variable {step : StepDefinition} {row : StepRow} {executionPath : String}

lemma plain_now : OfPlain e Any now := .free .now rfl

variable (id : StepId)

lemma plain_getStep : OfPlain e Any (getStep id) := .free (.getStep id) rfl

lemma plain_markHandled : OfPlain e Any (markHandled id) :=
  .free (.markHandled id) rfl

lemma plain_findFailed (unhandled : Bool) : OfPlain e Any (findFailed unhandled) :=
  .free (.findFailed unhandled) rfl

lemma plain_findExecution (id : String) : OfPlain e Any (findExecution id) :=
  .free (.findExecution id) rfl

lemma plain_findSteps : OfPlain e Any (findSteps executionPath) :=
  .free (.findSteps executionPath) rfl

lemma inScope_setSteps {context : ContextId} {executionPath : String}
    {steps : List (String × ContextStep)} :
    InScope p e scope Any (setSteps context executionPath steps) :=
  Composed.ask ⟨rfl, fun _ => rfl⟩ fun _ _ => .ret trivial

lemma inScope_setStepResult {context : ContextId} {stepKey : String} {status : StepExecutionStatus}
    {output : Option Json} : InScope p e scope Any (setStepResult context stepKey status output) :=
  Composed.ask ⟨rfl, fun _ => rfl⟩ fun _ _ => .ret trivial

/-- The row of a step is read. -/
lemma plain_ensure (iterationIndex : Option ℕ) :
    OfPlain e (fun row => row.id = ⟨e, step.key, executionPath⟩)
      (ensure p e step executionPath iterationIndex) := by
  have hupsert : OfPlain e (fun row => row.id = ⟨e, step.key, executionPath⟩)
      (upsertStep step executionPath iterationIndex (step.policy p.js).maxAttempts) :=
    Composed.ask rfl fun _ hid => .ret hid
  refine Composed.ask rfl fun (found : Bool) _ => ?_
  cases found with
  | true => exact hupsert
  | false =>
    refine Composed.ask rfl fun (count : ℕ) _ => ?_
    exact .ite .fail hupsert

lemma inScope_skip {reason : String} : InScope p e scope Any (skip p row reason) :=
  plain_now.inScope.andThen fun _ => (InScope.writeStep rfl).andThen fun _ => .ret trivial

lemma inScope_completeWait : InScope p e scope Any (completeWait p row) :=
  plain_now.inScope.andThen fun _ => (InScope.writeStep rfl).andThen fun _ => .ret trivial

lemma plain_hydrate {replay : ExecutionRow} {adjust : ExecutionRow → StepInput → StepInput} :
    OfPlain e (fun row' => row'.id = row.id) (hydrate replay row adjust) := by
  unfold hydrate
  split
  · exact .ret rfl
  · split
    · exact .ret rfl
    · refine Composed.ask rfl fun (taken : Option StepInput) _ => ?_
      cases taken with
      | none => exact .ret rfl
      | some value => exact OfPlain.writeStep rfl

/-! ## Attempts -/

/-- The writes of an attempt until its result is written. -/
def StepWrite.isOfHandling : StepWrite → Bool
  | .start .. | .input _ | .durableWait .. | .wait .. | .complete .. => true
  | _ => false

/-- The writes of an attempt. -/
def StepWrite.isOfAttempt : StepWrite → Bool
  | .start .. | .input _ | .durableWait .. | .wait .. | .complete .. | .fail .. => true
  | _ => false

/-- The statements of an attempt of a step until its result is written. -/
def Statement.isOfHandling : Statement → Bool
  | .writeStep row write => Decidable.decide (row.id = id) && write.isOfHandling
  | .now | .resolveConfig .. | .decide .. | .invoke .. => true
  | _ => false

/-- The statements of an attempt of a step. -/
def Statement.isOfAttempt : Statement → Bool
  | .writeStep row write => Decidable.decide (row.id = id) && write.isOfAttempt
  | .now | .resolveConfig .. | .decide .. | .invoke .. => true
  | _ => false

/-- The program consists of the statements of an attempt until its result is written. -/
abbrev OfHandling (rely : (statement : Statement) → Answer statement → Prop) (id : StepId)
    (post : α → Prop) (program : Eng α) : Prop :=
  Composed rely (fun statement => statement.isOfHandling id = true) (fun _ _ _ => False) post program

/-- The program consists of the statements of an attempt. -/
abbrev OfAttempt (rely : (statement : Statement) → Answer statement → Prop) (id : StepId)
    (program : Eng α) : Prop :=
  Composed rely (fun statement => statement.isOfAttempt id = true) (fun _ _ _ => False) Any program

/-- The result of a step is that of its handler, or that of a test run. -/
def Produced (rely : (statement : Statement) → Answer statement → Prop) (step : StepDefinition)
    (result : StepResult) : Prop :=
  (∃ context row attempt config, rely (.invoke context row step attempt config) (.ok result)) ∨
    ∃ config, rely (.decide step config) (.mock result)

variable {rely : (statement : Statement) → Answer statement → Prop} {context : ContextId}

variable {write : StepWrite}

lemma isOfHandling_write (h : write.isOfHandling = true) :
    (Statement.writeStep row write).isOfHandling row.id = true := by
  simp [Statement.isOfHandling, h]

lemma isOfAttempt_write (h : write.isOfAttempt = true) :
    (Statement.writeStep row write).isOfAttempt row.id = true := by
  simp [Statement.isOfAttempt, h]

lemma isOfAttempt_of_handling {id : StepId} (h : statement.isOfHandling id = true) :
    statement.isOfAttempt id = true := by
  cases statement with
  | writeStep row write =>
    simp only [Statement.isOfHandling, Statement.isOfAttempt, Bool.and_eq_true] at h ⊢
    refine ⟨h.1, ?_⟩
    cases write <;> first | rfl | exact absurd h.2 (by simp [StepWrite.isOfHandling])
  | _ => exact h

lemma ofHandling_runHandler (attempt : ℕ) :
    OfHandling rely row.id (Produced rely step) (runHandler p context step row attempt) := by
  have hconfig : OfHandling rely row.id Any (configFor context step row) := by
    unfold configFor
    split
    · exact .ret trivial
    · exact Composed.ask rfl fun answer _ => .ofExcept answer
  refine .andThen hconfig fun config => Composed.ask (isOfHandling_write rfl) fun _ _ =>
    Composed.ask rfl fun (decision : Decision) hdecision => ?_
  cases decision with
  | error failure => exact .fail
  | mock result =>
    exact .ite (.ret (.inr ⟨config, hdecision⟩)) .fail
  | runReal =>
    refine .ite ?_ .fail
    refine Composed.ask rfl fun (answer : Except Failure StepResult) hanswer => ?_
    cases answer with
    | error failure => exact .fail
    | ok result => exact .ret (.inl ⟨context, row, attempt, config, hanswer⟩)

lemma ofHandling_recordResult (result : StepResult) :
    OfHandling rely row.id (fun outcome => ∀ result', outcome = .completed result' → result' = result)
      (recordResult p row result) := by
  refine Composed.ask rfl fun (t : ℕ) _ => ?_
  change Composed _ _ _ _ (if _ then _ else _)
  split
  · exact Composed.ask (isOfHandling_write rfl) fun _ _ => .ret nofun
  split
  · exact Composed.ask (isOfHandling_write rfl) fun _ _ => .ret nofun
  · refine Composed.ask (isOfHandling_write rfl) fun _ _ => .ret ?_
    rintro _ ⟨⟩
    rfl

/-- An attempt until its result is written. -/
lemma ofHandling_attempted (attempt : ℕ) :
    OfHandling rely row.id
      (fun outcome => ∀ result, outcome = .completed result → Produced rely step result)
      ((runHandler p context step row attempt).bind (recordResult p row)) := by
  refine .bind (ofHandling_runHandler attempt) fun result hresult => ?_
  refine Composed.weaken (fun outcome h result' hcompleted => ?_) (ofHandling_recordResult result)
  rw [h result' hcompleted]
  exact hresult

lemma ofAttempt_recordFailure (attempt : ℕ) (failure : Failure) :
    OfAttempt rely row.id (recordFailure p step row attempt failure) := by
  refine Composed.ask rfl fun (t : ℕ) _ => Composed.ask (isOfAttempt_write rfl) fun _ _ => ?_
  split
  · exact .ret trivial
  · exact .fail

/-- An attempt consists of its statements. -/
lemma ofAttempt_execute : OfAttempt rely row.id (execute p context step row) :=
  Composed.ask rfl fun _ _ => Composed.ask (isOfAttempt_write rfl) fun _ _ => .handle
    (Composed.weaken (fun _ _ => trivial)
      ((ofHandling_attempted _).mono (fun _ h => isOfAttempt_of_handling h) False.elim))
    (ofAttempt_recordFailure _)

/-! ## Calls of the service for subworkflows -/

/-- The writes of the service for subworkflows. -/
def StepWrite.isOfSubworkflow : StepWrite → Bool
  | .childStart .. | .childWait _ | .childComplete .. | .childFail .. => true
  | _ => false

/-- The statements of the service for subworkflows. -/
def Statement.isOfSubworkflow : Statement → Bool
  | .writeStep row write | .startChild row write _ =>
    Decidable.decide (row.id = id) && write.isOfSubworkflow
  | .enqueue id => !id.isRecovery
  | .now | .resolveConfig .. | .latestChild _ | .findExecution _ | .countChildren _ | .resolveTarget ..
  | .freshId | .cancelChild .. | .exhausted .ancestry => true
  | _ => false

/-- The program consists of these statements. -/
abbrev OfSubworkflow (rely : (statement : Statement) → Answer statement → Prop) (id : StepId)
    (post : α → Prop) (program : Eng α) : Prop :=
  Composed rely (fun statement => statement.isOfSubworkflow id = true) (fun _ _ _ => False) post program

namespace Subworkflow

lemma isOfSubworkflow_write (h : write.isOfSubworkflow = true) :
    (Statement.writeStep row write).isOfSubworkflow row.id = true := by
  simp [Statement.isOfSubworkflow, h]

lemma ofSubworkflow_wait : OfSubworkflow rely row.id OfChild (wait row) :=
  Composed.ask rfl fun _ _ => Composed.ask (isOfSubworkflow_write rfl) fun _ _ => .ret nofun

lemma ofSubworkflow_fail {code message : String} :
    OfSubworkflow rely row.id OfChild (fail row code message) :=
  Composed.ask rfl fun _ _ => Composed.ask (isOfSubworkflow_write rfl) fun _ _ => .fail

lemma ofSubworkflow_ancestry (id : StepId) (executionId : String) :
    OfSubworkflow rely id Any (ancestry p executionId) := by
  have hstuck : OfSubworkflow rely id Any (exhausted .ancestry : Eng (List String)) :=
    Composed.ask rfl fun answer => nomatch answer
  refine .loop hstuck (fun next => ?_) _ _
  refine Composed.ask rfl fun (found : Option ExecutionRow) _ => ?_
  cases found with
  | none => exact .ret trivial
  | some found =>
    simp only [Prog.bind]
    split <;> exact .ret trivial

lemma ofSubworkflow_start {raw : Json} {config : Config} :
    OfSubworkflow rely row.id OfChild (start p e step row raw config) := by
  refine Composed.ask rfl fun (parent : Option ExecutionRow) _ => ?_
  cases parent with
  | none => exact .fail
  | some parent =>
    refine .ite ofSubworkflow_fail ?_
    refine (ofSubworkflow_ancestry _ _).andThen fun ids => ?_
    split
    · exact ofSubworkflow_fail
    refine Composed.ask rfl fun (count : ℕ) _ => ?_
    refine .ite ofSubworkflow_fail ?_
    refine Composed.ask rfl fun (target : Except Failure SubworkflowTarget) _ => ?_
    cases target with
    | error failure => exact .fail
    | ok target =>
      refine .ite ofSubworkflow_fail ?_
      refine (Composed.ofExcept _).andThen fun _ => Composed.ask rfl fun _ _ =>
        Composed.ask rfl fun _ _ => Composed.ask ?_ fun _ _ => Composed.ask rfl fun _ _ =>
          ofSubworkflow_wait
      simp [Statement.isOfSubworkflow, StepWrite.isOfSubworkflow]

/-- A call of the service consists of its statements. -/
lemma ofSubworkflow_execute : OfSubworkflow rely row.id OfChild (execute p e context step row) := by
  refine .andThen (Composed.ask rfl fun raw _ => Composed.ofExcept raw) fun raw =>
    (Composed.ofExcept _).andThen fun config => ?_
  refine Composed.ask rfl fun (newest : Option ExecutionRow) _ => ?_
  cases newest with
  | none => exact ofSubworkflow_start
  | some child =>
    simp only [Prog.bind]
    cases child.status with
    | pending | queued | running | retrying =>
      refine Composed.ask rfl fun (t : ℕ) _ => ?_
      refine .ite ?_ ofSubworkflow_wait
      refine Composed.ask rfl fun _ _ => ?_
      split
      · exact ofSubworkflow_fail
      · exact ofSubworkflow_wait
    | completed =>
      refine (Composed.ofExcept _).andThen fun output => Composed.ask rfl fun _ _ =>
        Composed.ask (isOfSubworkflow_write rfl) fun _ _ => .ret ?_
      rintro _ ⟨⟩
      exact ⟨child, output, rfl⟩
    | failed | cancelled =>
      dsimp only
      split
      · exact ofSubworkflow_fail
      · exact ofSubworkflow_start

end Subworkflow

/-! ## Loops -/

/-- The path of an iteration is longer than that of its loop. -/
lemma length_lt_iterationPath (parentPath stepKey : String) (index : ℕ) :
    parentPath.length < (iterationPath parentPath stepKey index).length := by
  have hslash : ("/" : String).length = 1 := by decide
  simp only [iterationPath, String.length_append]
  omega

/-- The path of a region is longer than that of its try block. -/
lemma length_lt_regionPath (parentPath stepKey region : String) :
    parentPath.length < (regionPath parentPath stepKey region).length := by
  have htry : ("/try[" : String).length = 5 := by decide
  simp only [regionPath, String.length_append]
  omega

variable {graph : RuntimeGraph}

namespace ForEach

variable {tryCatch : TryInput → Eng ServiceOutcome} {input : ForEachInput} {config : Config}
  {allows : Statement → Prop} {calls : (ε α : Type) → Prog Statement Answer ε α → Prop}

/-- Try blocks are parts of a run. -/
abbrev TryParts (p : Platform) (e : String) (tryCatch : TryInput → Eng ServiceOutcome) : Prop :=
  ∀ tryInput : TryInput, InScope p e (.service tryInput.parentPath) Any (tryCatch tryInput)

lemma composed_during {call : Eng α} {post : α → Prop} {state : LoopState}
    (h : Composed rely allows calls post call) :
    Composed rely allows calls post (during state call) :=
  h.handle fun _ => .fail

lemma plain_checkpoint {state : LoopState} : OfPlain e Any (checkpoint input config state) :=
  (composed_during (OfPlain.writeStep rfl)).andThen fun _ => .ret trivial

variable {cursor : Cursor}

lemma plain_advance {next : String} : OfPlain e Any (advance input config cursor next) :=
  plain_checkpoint.andThen fun _ => .ret trivial

lemma plain_suspend {nextRetryAt : Option ℕ} {waitReason : Option WaitReason} :
    OfPlain e Any (suspend input config cursor nextRetryAt waitReason) :=
  plain_checkpoint.andThen fun _ => .ret trivial

lemma plain_iterationFailed {stepKey : String} {failed : StepRow} {failure : Failure} :
    OfPlain e Any (iterationFailed input config cursor stepKey failed failure) := by
  have hcount : OfPlain e Any (handleIterationFailure config cursor.state stepKey failed) := by
    unfold handleIterationFailure
    dsimp only
    split
    · exact (composed_during (plain_markHandled _)).andThen fun _ => .ret trivial
    · exact .ret trivial
  refine hcount.andThen fun state => ?_
  split
  · exact .ret trivial
  · exact .fail

variable {iterationIndex : ℕ}

lemma inScope_skipUnselected {controlKey selected : String} :
    InScope p e scope Any
      (skipUnselected p e graph input executionPath iterationIndex controlKey selected) := by
  refine .each fun key _ => ?_
  split
  · exact .ret trivial
  · refine (plain_ensure _).inScope.andThen fun row => ?_
    split
    · exact .ret trivial
    · exact inScope_skip.andThen fun _ => inScope_setStepResult

lemma inScope_stepDone {step : StepDefinition} {output : Option Json}
    {status : StepExecutionStatus} :
    InScope p e scope Any
      (stepDone p e graph input config executionPath step cursor output status) := by
  unfold stepDone
  split
  · exact .fail
  · split
    · exact (composed_during inScope_skipUnselected).andThen fun _ => plain_advance.inScope
    · exact plain_advance.inScope

lemma inScope_plainStep (hpath : input.parentPath.length < executionPath.length)
    (hid : row.id = ⟨e, step.key, executionPath⟩) (hstep : p.step? row.id = some step)
    (cursor : Cursor) :
    InScope p e (.service input.parentPath) Any
      (plainStep p e graph input config executionPath step row cursor) := by
  refine (composed_during plain_now.inScope).andThen fun t => ?_
  split
  · exact plain_suspend.inScope
  split
  · exact (composed_during inScope_completeWait).andThen fun _ =>
      (composed_during inScope_setStepResult).andThen fun _ => inScope_stepDone
  split
  · exact plain_iterationFailed.inScope
  split
  · exact inScope_stepDone
  · have hattempt : InScope p e (.service input.parentPath) Any
        (((Flowmind.execute p (.iteration executionPath) step row).bind
          fun outcome => pure (.inl outcome)).handle
          fun failure => pure (.inr failure) : Eng (StepOutcome ⊕ Failure)) :=
      .handle (.andThen (.call (.attempt ⟨by rw [hid], hstep, by rw [hid]; exact hpath⟩ nofun))
        fun _ => .ret trivial) fun _ => .ret trivial
    refine (composed_during hattempt).andThen fun outcome => ?_
    split
    · exact (composed_during inScope_setStepResult).andThen fun _ =>
        inScope_stepDone
    · exact plain_suspend.inScope
    · exact plain_suspend.inScope
    · refine (composed_during (plain_getStep _).inScope).andThen fun (failed : Option StepRow) => ?_
      cases failed with
      | none => exact .fail
      | some failed => exact plain_iterationFailed.inScope

lemma plain_bodyRow :
    OfPlain e (fun row => row.id = ⟨e, step.key, executionPath⟩)
      (bodyRow p e executionPath step iterationIndex) := by
  refine .bind (plain_ensure _) fun row hid => ?_
  split
  · refine (plain_findExecution e).andThen fun (replay : Option ExecutionRow) => ?_
    cases replay with
    | none => exact .ret hid
    | some replay => exact Composed.weaken (fun _ h => h.trans hid) plain_hydrate
  · exact .ret hid

lemma inScope_bodyStep (hpath : input.parentPath.length < executionPath.length)
    (htry : TryParts p e tryCatch) (cursor : Cursor) :
    InScope p e (.service input.parentPath) Any
      (bodyStep p e graph tryCatch input config executionPath cursor) := by
  unfold bodyStep
  split
  · exact .ret trivial
  split
  · exact .fail
  split
  · exact .fail
  case h_2 step hstep =>
    have hstep' := step?_of_stepRow? hstep executionPath
    split
    · exact (composed_during inScope_setStepResult).andThen fun _ => plain_advance.inScope
    refine .bind (composed_during plain_bodyRow.inScope) fun row hid => ?_
    split
    · unfold tryStep
      split
      · exact .fail
      split
      · exact (composed_during inScope_setStepResult).andThen fun _ => .ret trivial
      · have hcall := InScope.within hpath.le (htry
          { step, row, parentContext := .iteration executionPath, parentPath := executionPath
            iterationIndex := some cursor.state.nextIndex })
        refine (composed_during hcall).andThen fun result => ?_
        split
        · exact plain_suspend.inScope
        · exact (composed_during inScope_setStepResult).andThen fun _ => plain_advance.inScope
    split
    case isTrue htype =>
      have hcall : InScope p e (.service input.parentPath) Any
          (Subworkflow.execute p e (.iteration executionPath) step row) :=
        .call (.subworkflow ⟨by rw [hid], hid ▸ hstep', by rw [hid]; exact hpath⟩ htype)
      refine (composed_during hcall).andThen fun result => ?_
      split
      · exact plain_suspend.inScope
      · exact (composed_during inScope_setStepResult).andThen fun _ => plain_advance.inScope
    · exact inScope_plainStep hpath hid (hid ▸ hstep') cursor

lemma inScope_iteration (htry : TryParts p e tryCatch) (state : LoopState) :
    InScope p e (.service input.parentPath) Any
      (iteration p e graph tryCatch input config state) := by
  unfold iteration
  split
  · refine (composed_during plain_findSteps.inScope).andThen fun _ =>
      (composed_during inScope_setSteps).andThen fun _ => ?_
    refine (Composed.loop (composed_during OfPlain.exhausted.inScope)
      (inScope_bodyStep (length_lt_iterationPath _ _ _) htry) _ _).andThen fun exit => ?_
    cases exit with
    | waiting nextRetryAt waitReason => exact .ret trivial
    | finished cursor => exact plain_checkpoint.inScope.andThen fun _ => .ret trivial
  · exact (composed_during plain_now.inScope).andThen fun _ =>
      (composed_during (InScope.writeStep rfl)).andThen fun _ => .ret trivial

lemma inScope_startState : InScope p e scope Any (startState p input config) := by
  unfold startState
  split
  · exact .ret trivial
  · have hsource : InScope p e scope Any (loopSource input.row input.step) :=
      Composed.ask ⟨rfl, fun _ => rfl⟩ fun answer _ => .ofExcept answer
    refine (composed_during hsource).andThen fun source => ?_
    split
    · split
      · exact .fail
      split
      · exact .fail
      exact (composed_during plain_now.inScope).andThen fun _ =>
        (composed_during (InScope.writeStep rfl)).andThen fun _ => .ret trivial
    · exact .fail

/-- **A loop is a part of a run**, if try blocks are. -/
lemma inScope_execute (htry : TryParts p e tryCatch) :
    InScope p e (.service input.parentPath) Any (execute p e graph tryCatch input) := by
  refine .handle (inScope_startState.andThen fun state =>
    .loop (composed_during OfPlain.exhausted.inScope) (inScope_iteration htry) _ _) ?_
  rintro ⟨state, failure⟩
  exact plain_now.inScope.andThen fun _ => (InScope.writeStep rfl).andThen fun _ => .fail

end ForEach

/-! ## Try blocks -/

namespace TryCatch

variable {forEach : ForEachInput → Eng ServiceOutcome} {input : TryInput} {entries : Entries}
  {region : Region} {allows : Statement → Prop}
  {calls : (ε α : Type) → Prog Statement Answer ε α → Prop}

/-- Loops are parts of a run. -/
abbrev LoopParts (p : Platform) (e : String) (forEach : ForEachInput → Eng ServiceOutcome) : Prop :=
  ∀ loopInput : ForEachInput, InScope p e (.service loopInput.parentPath) Any (forEach loopInput)

lemma plain_failureFromRow {id : StepId} : OfPlain e Any (failureFromRow p id) := by
  refine (plain_getStep id).andThen fun (found : Option StepRow) => ?_
  cases found with
  | none => exact .fail
  | some row => exact .ret trivial

lemma plain_asFailure {failure : Failure} {id : Option StepId} :
    OfPlain e Any (asFailure p failure id) := by
  unfold asFailure
  split
  · exact .ret trivial
  · exact plain_failureFromRow
  · refine (plain_findFailed true).andThen fun (found : Option StepRow) => ?_
    cases found with
    | none => exact .fail
    | some row => exact plain_failureFromRow

lemma plain_throwFailure {failure : Failure} {id : Option StepId} :
    OfPlain e Any (throwFailure p failure id : Eng α) :=
  plain_asFailure.andThen fun _ => .fail

lemma plain_regionRow :
    OfPlain e (fun row => row.id = ⟨e, step.key, executionPath⟩)
      (regionRow p e input executionPath step) := by
  refine .bind (plain_ensure _) fun row hid => ?_
  split
  · refine (plain_findExecution e).andThen fun (replay : Option ExecutionRow) => ?_
    cases replay with
    | none => exact .ret hid
    | some replay => exact Composed.weaken (fun _ h => h.trans hid) plain_hydrate
  · exact .ret hid

variable {state : TryState}

lemma composed_during {call : Eng α} {post : α → Prop} (h : Composed rely allows calls post call) :
    Composed rely allows calls post (during state call) :=
  h.handle fun _ => .fail

lemma plain_checkpoint : OfPlain e Any (checkpoint input state) :=
  (OfPlain.writeStep rfl).andThen fun _ => .ret trivial

lemma plain_advance {cursor : Cursor} {next : String} :
    OfPlain e Any (advance input region cursor next) :=
  plain_checkpoint.andThen fun _ => .ret trivial

lemma plain_suspend {cursor : Cursor} {nextRetryAt : Option ℕ} {waitReason : Option WaitReason} :
    OfPlain e Any (suspend input cursor nextRetryAt waitReason) :=
  plain_checkpoint.andThen fun _ => .ret trivial

lemma plain_proceed {primary : Option PrimaryFailure} :
    OfPlain e Any (proceed input state primary) :=
  (composed_during plain_checkpoint).andThen fun _ => .ret trivial

lemma inScope_plainStep (hpath : input.parentPath.length < executionPath.length)
    (hid : row.id = ⟨e, step.key, executionPath⟩) (hstep : p.step? row.id = some step)
    (cursor : Cursor) :
    InScope p e (.service input.parentPath) Any
      (plainStep p graph input region context step row cursor) := by
  refine plain_now.inScope.andThen fun t => ?_
  split
  · exact plain_suspend.inScope
  split
  · exact inScope_completeWait.andThen fun _ =>
      inScope_setStepResult.andThen fun _ => plain_advance.inScope
  split
  · exact plain_failureFromRow.inScope.andThen fun _ => .fail
  split
  · exact plain_advance.inScope
  · have hattempt : InScope p e (.service input.parentPath) Any
        ((Flowmind.execute p context step row).handle
          fun failure => throwFailure p failure (some row.id)) :=
      .handle (.call (.attempt ⟨by rw [hid], hstep, by rw [hid]; exact hpath⟩ nofun))
        fun _ => plain_throwFailure.inScope
    refine hattempt.andThen fun outcome => ?_
    cases outcome with
    | completed result => exact inScope_setStepResult.andThen fun _ => plain_advance.inScope
    | retrying nextRetryAt => exact plain_suspend.inScope
    | durableWait => exact plain_suspend.inScope

/-- One step of a region. -/
lemma inScope_regionStep (hpath : input.parentPath.length < executionPath.length)
    (hloop : LoopParts p e forEach) (cursor : Cursor) :
    InScope p e (.service input.parentPath) Any
      (regionStep p e graph forEach input region context executionPath cursor) := by
  unfold regionStep
  split
  · exact .ret trivial
  split
  · exact .fail
  split
  · exact .fail
  case h_2 step hstep =>
    have hstep' := step?_of_stepRow? hstep executionPath
    split
    · exact inScope_setStepResult.andThen fun _ => plain_advance.inScope
    refine .bind plain_regionRow.inScope fun row hid => ?_
    split
    · unfold loopStep
      split
      case h_1 body done _ _ =>
        split
        · exact inScope_setStepResult.andThen fun _ => .ret trivial
        have hcall := InScope.within hpath.le (hloop
          { step, row, bodyEntry := body, done, bodyKeys := graph.regionKeys body done
            parentPath := executionPath })
        refine hcall.andThen fun result => ?_
        cases result with
        | waiting nextRetryAt waitReason => exact plain_suspend.inScope
        | completed => exact inScope_setStepResult.andThen fun _ => .ret trivial
      case h_2 => exact .fail
    split
    case isTrue htype =>
      have hcall : InScope p e (.service input.parentPath) Any
          ((Subworkflow.execute p e context step row).handle
            fun failure => throwFailure p failure (some row.id)) :=
        .handle (.call (.subworkflow ⟨by rw [hid], hid ▸ hstep', by rw [hid]; exact hpath⟩ htype))
          fun _ => plain_throwFailure.inScope
      refine hcall.andThen fun result => ?_
      cases result with
      | waiting nextRetryAt waitReason => exact plain_suspend.inScope
      | completed output => exact inScope_setStepResult.andThen fun _ => plain_advance.inScope
    · exact inScope_plainStep hpath hid (hid ▸ hstep') cursor

section Regions

variable (hloop : LoopParts p e forEach) (state : TryState) (primary : Option PrimaryFailure)

include hloop

lemma inScope_tryRegion :
    InScope p e (.service input.parentPath) Any
      (tryRegion p e graph forEach input region context state) := by
  have hregion : InScope p e (.service input.parentPath) Any
      (runRegion p e graph forEach input region context state) :=
    plain_findSteps.inScope.andThen fun _ => inScope_setSteps.andThen fun _ =>
      .loop OfPlain.exhausted.inScope (inScope_regionStep (length_lt_regionPath _ _ _) hloop) _ _
  exact (hregion.andThen fun _ => .ret trivial).handle fun _ => .ret trivial

lemma inScope_bodyPhase :
    InScope p e (.service input.parentPath) Any
      (bodyPhase p e graph forEach input entries state primary) := by
  unfold bodyPhase
  split
  · exact .ret trivial
  refine (composed_during (inScope_tryRegion hloop state)).andThen fun result => ?_
  split
  · exact .ret trivial
  · exact plain_proceed.inScope
  · exact (composed_during plain_asFailure.inScope).andThen fun _ => plain_proceed.inScope

lemma inScope_catchPhase :
    InScope p e (.service input.parentPath) Any
      (catchPhase p e graph forEach input entries state primary) := by
  unfold catchPhase
  split
  · exact .ret trivial
  split
  · exact .fail
  refine (composed_during inScope_setSteps).andThen fun _ =>
    (composed_during (inScope_tryRegion hloop state)).andThen fun result => ?_
  split
  · exact .ret trivial
  · exact (composed_during (plain_markHandled _).inScope).andThen fun _ => plain_proceed.inScope
  · exact (composed_during plain_asFailure.inScope).andThen fun _ => plain_proceed.inScope

lemma inScope_finallyPhase :
    InScope p e (.service input.parentPath) Any
      (finallyPhase p e graph forEach input entries state primary) := by
  unfold finallyPhase
  split
  · exact .ret trivial
  split
  · exact .ret trivial
  refine (composed_during (inScope_tryRegion hloop state)).andThen fun result => ?_
  split
  · exact .ret trivial
  · exact plain_proceed.inScope
  · exact (composed_during plain_asFailure.inScope).andThen fun _ => plain_proceed.inScope

omit hloop in
lemma inScope_finish : InScope p e scope Any (finish input state primary) := by
  unfold finish
  split
  · split <;> exact .fail
  · exact (composed_during plain_now.inScope).andThen fun _ =>
      (composed_during (InScope.writeStep rfl)).andThen fun _ => .ret trivial

lemma inScope_runPhases :
    InScope p e (.service input.parentPath) Any
      (runPhases p e graph forEach input entries state primary) := by
  refine (inScope_bodyPhase hloop state primary).andThen fun afterBody => ?_
  cases afterBody with
  | waiting => exact .ret trivial
  | next state primary =>
    refine (inScope_catchPhase hloop state primary).andThen fun afterCatch => ?_
    cases afterCatch with
    | waiting => exact .ret trivial
    | next state primary =>
      refine (inScope_finallyPhase hloop state primary).andThen fun afterFinally => ?_
      cases afterFinally with
      | waiting => exact .ret trivial
      | next state primary => exact inScope_finish state primary

end Regions

lemma plain_startState : OfPlain e Any (startState input) := by
  unfold startState
  split
  · exact .ret trivial
  · exact plain_now.andThen fun _ => (OfPlain.writeStep rfl).andThen fun _ => .ret trivial

/-- **A try block is a part of a run**, if loops are. -/
lemma inScope_execute (hloop : LoopParts p e forEach) :
    InScope p e (.service input.parentPath) Any (execute p e graph forEach input) := by
  unfold execute
  split
  · exact .fail
  refine plain_startState.inScope.andThen fun state => (inScope_runPhases hloop _ _).handle ?_
  rintro ⟨state, failure⟩
  exact plain_asFailure.inScope.andThen fun _ => plain_now.inScope.andThen fun _ =>
    (InScope.writeStep rfl).andThen fun _ => .fail

end TryCatch

/-! ## All services -/

/-- **The services are parts of a run.** -/
lemma inScope_services (p : Platform) (graph : RuntimeGraph) : ∀ depth : ℕ,
    TryCatch.LoopParts p e (services p e graph depth).forEach ∧
    ForEach.TryParts p e (services p e graph depth).tryCatch
  | 0 => ⟨fun _ => OfPlain.exhausted.inScope, fun _ => OfPlain.exhausted.inScope⟩
  | depth + 1 =>
    have ih := inScope_services p graph depth
    ⟨fun _ => ForEach.inScope_execute ih.2, fun _ => TryCatch.inScope_execute ih.1⟩

/-! ## The main loop -/

namespace Runner

/-- A service that the main loop calls. -/
lemma inScope_ofService {post : α → Prop} {program : Eng α}
    (h : InScope p e (.service rootPath) post program) : InScope p e .loop post program := by
  have hcalls : Scope.loop.calls ≤ (Scope.service rootPath).calls := Nat.zero_le _
  exact InScope.mono hcalls nofun (fun _ => .inr (Nat.lt_succ_self _)) (fun _ => rfl) h

lemma plain_release : OfPlain e Any release := .free .release rfl

lemma plain_assertOwned : OfPlain e Any Eng.assertOwned := by
  refine (OfPlain.free .assertOwned rfl).andThen fun (owned : Bool) => ?_
  cases owned with
  | true => exact .ret trivial
  | false => exact .fail

lemma plain_updateContextCache : OfPlain e Any updateContextCache :=
  .free .writeContext rfl

variable {next : Option String}

lemma plain_route {stepKey : String} : OfPlain e Any (route stepKey next) :=
  .free (.route stepKey next) rfl

lemma plain_reload :
    OfPlain e (fun loaded => ∀ row ∈ loaded.steps, row.id.executionId = e) (reload e) := by
  refine Composed.ask rfl fun (loaded : Option LoadedExecution) hloaded => ?_
  cases loaded with
  | none => exact .fail
  | some loaded => exact .ret hloaded

variable {nextRetryAt : Option ℕ} {waitReason : Option WaitReason}

lemma plain_suspend : OfPlain e Any (suspend nextRetryAt waitReason) :=
  (OfPlain.free (.markWaiting waitReason) rfl).andThen fun _ =>
    plain_release.andThen fun _ => .ret trivial

lemma plain_wakeParent : OfPlain e Any (wakeParent e) :=
  (plain_findExecution e).andThen fun row => by
    split
    · exact OfPlain.free (.enqueue _) rfl
    · exact .ret trivial

lemma plain_complete : OfPlain e Any (complete e) := by
  refine plain_assertOwned.andThen fun _ =>
    (OfPlain.free .countUnhandled rfl).andThen fun (failed : ℕ) => ?_
  split
  · exact .fail
  refine plain_now.andThen fun t =>
    (OfPlain.free (.transitionTerminal none t) rfl).andThen fun (count : ℕ) =>
      plain_release.andThen fun _ => ?_
  split
  · exact .ret trivial
  · exact plain_wakeParent.andThen fun _ => .ret trivial

variable {current : LoadedExecution}

lemma plain_leave {stepKey : String} : OfPlain e Any (leave current stepKey next) :=
  plain_route.andThen fun _ => .ret trivial

lemma plain_leaveWaiting : OfPlain e Any (leaveWaiting nextRetryAt waitReason) :=
  plain_suspend.andThen fun _ => .ret trivial

lemma plain_leaveDone : OfPlain e Any (leaveDone graph current step) := by
  unfold leaveDone
  split
  · exact plain_leave
  · split
    · exact plain_route.andThen fun _ => .ret trivial
    · exact .fail

lemma inScope_settleBranches (result : StepResult) :
    InScope p e scope Any (settleBranches p e graph step result) := by
  unfold settleBranches
  split
  case h_1 selected _ =>
    refine (OfPlain.free (.selectBranch step.key selected) rfl).inScope.andThen fun _ =>
      .each fun key _ => ?_
    split
    · exact .ret trivial
    · refine (plain_ensure _).inScope.andThen fun row => ?_
      split
      · exact .ret trivial
      · exact inScope_skip.andThen fun _ => inScope_setStepResult
  case h_2 => exact .ret trivial

lemma inScope_keepResult (outcome : StepOutcome) :
    InScope p e scope Any (keepResult step outcome) := by
  cases outcome with
  | completed result => exact inScope_setStepResult
  | _ => exact .ret trivial

lemma inScope_runStep (hexecution : row.id.executionId = e) (hstep : p.step? row.id = some step) :
    InScope p e .run Any (runStep p e graph step row) := by
  have hattempt : InScope p e .run Any (execute p .execution step row) :=
    .call (.attempt ⟨hexecution, hstep, Nat.zero_le _⟩ nofun)
  refine hattempt.andThen fun outcome => plain_assertOwned.inScope.andThen fun _ =>
    (inScope_keepResult outcome).andThen fun _ => plain_updateContextCache.inScope.andThen fun _ => ?_
  cases outcome with
  | retrying nextRetryAt => exact plain_leaveWaiting.inScope
  | durableWait => exact plain_leaveWaiting.inScope
  | completed result =>
    dsimp only
    split
    · exact Composed.ask ⟨rfl, nofun⟩ fun _ _ => plain_reload.inScope.andThen fun _ =>
        plain_route.inScope.andThen fun _ => .ret trivial
    · exact (inScope_settleBranches result).andThen fun _ =>
        plain_reload.inScope.andThen fun current => plain_leaveDone.inScope

lemma inScope_attempt (hgraph : p.graph e = some graph) (hexecution : row.id.executionId = e)
    (hpath : row.id.executionPath = rootPath) (hstep : p.step? row.id = some step)
    (current : LoadedExecution) : InScope p e .loop Any (attempt p e graph current step row) := by
  unfold attempt
  split
  · exact .fail
  split
  · exact plain_leaveDone.inScope
  · exact .call (.runStep rfl hgraph ⟨hexecution, hstep, Nat.zero_le _⟩ hpath)

lemma inScope_plainStep (hgraph : p.graph e = some graph) (hid : row.id = ⟨e, step.key, rootPath⟩)
    (hstep : p.step? ⟨e, step.key, rootPath⟩ = some step) (current : LoadedExecution) :
    InScope p e .loop Any (plainStep p e graph current step row) := by
  refine plain_now.inScope.andThen fun t => ?_
  split
  · exact plain_leaveWaiting.inScope
  split
  · refine inScope_completeWait.andThen fun _ => inScope_setStepResult.andThen fun _ =>
      plain_updateContextCache.inScope.andThen fun _ => .bind plain_reload.inScope fun current hcurrent => ?_
    split
    · exact .fail
    case h_2 row' hrow' =>
      obtain ⟨hmem, hid'⟩ := mem_of_rootRow hrow'
      have hexecution := hcurrent row' hmem
      refine inScope_attempt hgraph hexecution (by rw [hid']) ?_ current
      rw [hid', hexecution]
      exact hstep
  · exact inScope_attempt hgraph (by rw [hid]) (by rw [hid]) (hid ▸ hstep) current

lemma inScope_loopStep (depth : ℕ) :
    InScope p e .loop Any (loopStep e graph (services p e graph depth) current step row) := by
  unfold loopStep
  split
  case h_1 body done _ _ =>
    split
    · exact .fail
    split
    · exact inScope_setStepResult.andThen fun _ => plain_leave.inScope
    have hparts : TryCatch.LoopParts p e (services p e graph depth).forEach :=
      (inScope_services p graph depth).1
    have hcall := inScope_ofService (hparts
      { step, row, bodyEntry := body, done, bodyKeys := graph.regionKeys body done
        parentPath := rootPath })
    refine hcall.andThen fun outcome => plain_updateContextCache.inScope.andThen fun _ => ?_
    split
    · exact plain_leaveWaiting.inScope
    · exact inScope_setStepResult.andThen fun _ =>
        plain_reload.inScope.andThen fun _ => plain_leave.inScope
  case h_2 => exact .fail

lemma inScope_tryStep (depth : ℕ) :
    InScope p e .loop Any (tryStep e graph (services p e graph depth) current step row) := by
  unfold tryStep
  split
  · split
    · exact inScope_setStepResult.andThen fun _ => plain_leave.inScope
    have hparts : ForEach.TryParts p e (services p e graph depth).tryCatch :=
      (inScope_services p graph depth).2
    have hcall := inScope_ofService (hparts
      { step, row, parentContext := .execution, parentPath := rootPath, iterationIndex := none })
    refine hcall.andThen fun outcome => plain_updateContextCache.inScope.andThen fun _ => ?_
    split
    · exact plain_leaveWaiting.inScope
    · exact inScope_setStepResult.andThen fun _ =>
        plain_reload.inScope.andThen fun _ => plain_leave.inScope
  · exact .fail

/-- One round of the main loop. -/
lemma inScope_rootStep (hgraph : p.graph e = some graph) (position : Position) (depth : ℕ) :
    InScope p e .loop Any (rootStep p e graph (services p e graph depth) position) := by
  unfold rootStep
  split
  · exact .ret trivial
  refine (OfPlain.free (.visit _) rfl).inScope.andThen fun _ => ?_
  split
  · exact plain_release.inScope.andThen fun _ => .ret trivial
  refine plain_assertOwned.inScope.andThen fun _ => ?_
  split
  · exact .fail
  case h_2 step hstep =>
    split
    · exact inScope_setStepResult.andThen fun _ => plain_leave.inScope
    have hstep' := step?_of_stepRow? hstep rootPath
    refine .bind (plain_ensure _).inScope fun row hid => ?_
    split
    · exact plain_hydrate.inScope.andThen fun _ => inScope_loopStep depth
    · exact plain_hydrate.inScope.andThen fun _ => inScope_tryStep depth
    case h_3 htype =>
      have hcall : InScope p e .loop Any (Subworkflow.execute p e .execution step row) :=
        .call (.subworkflow ⟨by rw [hid], hid ▸ hstep', Nat.zero_le _⟩ htype)
      refine hcall.andThen fun outcome => plain_updateContextCache.inScope.andThen fun _ => ?_
      split
      · exact plain_leaveWaiting.inScope
      · exact inScope_setStepResult.andThen fun _ =>
          plain_reload.inScope.andThen fun _ => plain_leave.inScope
    · exact inScope_plainStep hgraph hid hstep' _

lemma inScope_runGraph (hgraph : p.graph e = some graph) (current : LoadedExecution) :
    InScope p e .loop Any (runGraph p e graph current) := by
  unfold runGraph
  split
  · exact .fail
  have hloop : InScope p e .loop Any (graphLoop p e graph current) :=
    .loop OfPlain.exhausted.inScope (fun position => inScope_rootStep hgraph position _) _ _
  refine hloop.andThen fun exit => ?_
  split
  · exact .ret trivial
  · exact plain_complete.inScope

/-- One step of a list. -/
lemma inScope_linearStep (hlist : p.graph e = none)
    (hstep : p.step? ⟨e, step.key, rootPath⟩ = some step) (position : LinearPosition) :
    InScope p e .loop Any (linearStep p e step position) := by
  unfold linearStep
  split
  · exact plain_release.inScope.andThen fun _ => .ret trivial
  refine plain_assertOwned.inScope.andThen fun _ => ?_
  split
  · exact .ret trivial
  split
  · exact inScope_setStepResult.andThen fun _ => .ret trivial
  refine .bind (plain_ensure _).inScope fun row hid => ?_
  split
  · exact .ret trivial
  split
  · exact .ret trivial
  refine plain_now.inScope.andThen fun t => ?_
  split
  · exact plain_suspend.inScope.andThen fun _ => .ret trivial
  split
  · exact .fail
  split
  · exact inScope_skip.andThen fun _ => inScope_setStepResult.andThen fun _ =>
      plain_updateContextCache.inScope.andThen fun _ => plain_reload.inScope.andThen fun _ => .ret trivial
  have hattempt : InScope p e .loop Any (execute p .execution step row) :=
    .call (.attempt ⟨by rw [hid], hid ▸ hstep, Nat.zero_le _⟩ fun _ => .inl hlist)
  refine hattempt.andThen fun outcome => plain_assertOwned.inScope.andThen fun _ =>
    (inScope_keepResult outcome).andThen fun _ => plain_updateContextCache.inScope.andThen fun _ => ?_
  split
  · exact plain_suspend.inScope.andThen fun _ => .ret trivial
  · exact plain_suspend.inScope.andThen fun _ => .ret trivial
  · exact plain_reload.inScope.andThen fun _ => .ret trivial

lemma inScope_runLinear (hlist : p.graph e = none) {steps : List StepDefinition}
    (position : LinearPosition)
    (h : ∀ step ∈ steps, p.step? ⟨e, step.key, rootPath⟩ = some step) :
    InScope p e .loop Any (runLinear p e steps position) := by
  induction steps generalizing position with
  | nil => exact plain_complete.inScope
  | cons step steps ih =>
    refine (inScope_linearStep hlist (h step (by simp)) position).andThen fun next => ?_
    cases next with
    | inl position => exact ih position fun step hmem => h step (by simp [hmem])
    | inr result => exact .ret trivial

lemma plain_putAside {execution : ExecutionRow} {failed : Option StepRow} :
    OfPlain e Any (putAside execution failed) := by
  unfold putAside
  split
  · exact .ret trivial
  split
  · exact .fail
  · exact Composed.ask rfl fun answer _ => .ofExcept answer

lemma plain_recover (execution : ExecutionRow) (failure : Failure) :
    OfPlain e Any (recover e execution failure) := by
  unfold recover
  split
  · exact .ret trivial
  refine (OfPlain.free .executionStatus rfl).andThen fun (latest : Option ExecutionStatus) => ?_
  split
  · exact plain_release.andThen fun _ => .ret trivial
  refine (plain_findFailed _).andThen fun failed => plain_now.andThen fun t =>
    (OfPlain.free (.transitionTerminal _ t) rfl).andThen fun (count : ℕ) => ?_
  split
  · exact plain_release.andThen fun _ => .ret trivial
  · exact plain_putAside.andThen fun _ => plain_wakeParent.andThen fun _ =>
      plain_release.andThen fun _ => .fail

lemma inScope_runSteps : InScope p e .loop Any (runSteps p e) := by
  refine plain_reload.inScope.andThen fun current => inScope_setSteps.andThen fun _ => ?_
  split
  case h_1 graph hgraph =>
    split
    · exact .fail
    · exact inScope_runGraph hgraph current
  case h_2 hlist =>
    exact inScope_runLinear hlist _ fun step hstep => Store.Table.get?_eq_some_iff.mpr ⟨hstep, rfl⟩

end Runner

/-- A run consists of steps of the main loop, calls of services and single statements. -/
lemma inScope_loop_run : InScope p e .loop Any (run p e) := by
  refine (OfPlain.free .acquire rfl).inScope.andThen fun (acquired : Bool) => ?_
  split
  · exact .ret trivial
  refine (OfPlain.free .loadExecution rfl).inScope.andThen fun (loaded : Option LoadedExecution) => ?_
  cases loaded with
  | none => exact .fail
  | some loaded =>
    dsimp only
    split
    · exact Runner.plain_release.inScope.andThen fun _ => .ret trivial
    · exact plain_now.inScope.andThen fun t => (OfPlain.free (.markStarted _) rfl).inScope.andThen fun _ =>
        .handle Runner.inScope_runSteps fun failure => (Runner.plain_recover _ failure).inScope

/-- **A run is made of attempts, of calls of the service for subworkflows and of single
statements.** -/
theorem inScope_run : InScope p e .run Any (run p e) := by
  refine Composed.flatten (fun statement h => ⟨h.single, nofun⟩) (fun hcall => ?_) inScope_loop_run
  cases hcall with
  | attempt h => exact .call (.attempt ⟨h.executionId, h.step, Nat.zero_le _⟩ nofun)
  | subworkflow h htype => exact .call (.subworkflow ⟨h.executionId, h.step, Nat.zero_le _⟩ htype)
  | runStep hrun hgraph h hpath => exact Runner.inScope_runStep h.executionId h.step

end Flowmind
