import Flowmind.Context.Frames

/-!
# The services and the contexts

One lemma for every function of the step executor and of the services for loops, try blocks and
subworkflows: a step that one of them finishes has its result put into the context of its path
before anything else is resolved there (`frameProtocol`).

A loop runs its body in a frame of its own, and a try block its regions in the context around it or
in that of its catch region; what belongs to shorter paths stays as it is.
-/

namespace Flowmind

variable {p : Platform} {e : String} {allowed : ContextId → String → Prop} {fr : OwnFrame}
  {id : StepId}

/-! ## The step executor -/

def StepOutcome.isCompleted : StepOutcome → Bool
  | .completed _ => true
  | _ => false

def ServiceOutcome.isCompleted : ServiceOutcome → Bool
  | .completed _ => true
  | _ => false

variable {context : ContextId} {step : StepDefinition} {row : StepRow}

lemma finishes_recordResult (hid : row.id = id) (result : StepResult) :
    Finishes e allowed fr id StepOutcome.isCompleted (recordResult p row result) := by
  refine .bind (.ask rfl) fun completedAt => ?_
  split
  · exact .bind (.writeStep row rfl) fun _ => .ret rfl
  · split
    · exact .bind (.writeStep row rfl) fun _ => .ret rfl
    · exact .writeStep hid rfl (fun _ => rfl) rfl

lemma keeps_runHandler (attempt : ℕ) :
    Keeps e allowed fr (runHandler p context step row attempt) := by
  have hconfig : Keeps e allowed fr (configFor context step row) := by
    unfold configFor
    split
    · exact .ret _
    · exact .orThrow (.ask rfl)
  refine hconfig.bind fun config => (Keeps.writeStep row rfl).bind fun _ =>
    Keeps.bind (.ask rfl) fun decision => ?_
  split
  · exact .fail _
  · split
    · exact .ret _
    · exact .fail _
  · split
    · exact .orThrow (.ask rfl)
    · exact .fail _

section

variable (hid : row.id = id)
include hid

/-- An attempt finishes its step if it is completed. -/
lemma finishes_execute :
    Finishes e allowed fr id StepOutcome.isCompleted (execute p context step row) := by
  refine .bind (.ask rfl) fun startedAt => .bind (.writeStep row rfl) fun _ => .handle
    (.bind (keeps_runHandler _) (finishes_recordResult hid)) fun failure => ?_
  refine .bind (.ask rfl) fun completedAt => .bind (.writeStep row rfl) fun _ => ?_
  split
  · exact .ret rfl
  · exact .fail _

lemma finishes_skip (reason : String) :
    Finishes e allowed fr id (fun _ => true) (skip p row reason) :=
  .bind (.ask rfl) fun _ => .writeStep hid rfl (fun _ => rfl) rfl

lemma finishes_completeWait : Finishes e allowed fr id (fun _ => true) (completeWait p row) :=
  .bind (.ask rfl) fun _ => .writeStep hid rfl (fun _ => rfl) rfl

end

/-! ## Subworkflows -/

namespace Subworkflow

lemma finishes_wait : Finishes e allowed fr id ServiceOutcome.isCompleted (wait row) :=
  .bind (.ask rfl) fun _ => .bind (.writeStep row rfl) fun _ => .ret rfl

lemma finishes_fail {code message : String} :
    Finishes e allowed fr id ServiceOutcome.isCompleted (fail row code message) :=
  .bind (.ask rfl) fun _ => .bind (.writeStep row rfl) fun _ => .fail _

lemma keeps_ancestry (executionId : String) : Keeps e allowed fr (ancestry p executionId) := by
  refine .loop (.exhausted _) (fun next => ?_) _ _
  refine Keeps.bind (.ask rfl) fun (found : Option ExecutionRow) => ?_
  cases found with
  | none => exact .ret _
  | some row =>
    dsimp only
    split <;> exact .ret _

lemma finishes_start (executionId : String) (raw : Json) (config : Config) :
    Finishes e allowed fr id ServiceOutcome.isCompleted (start p executionId step row raw config) := by
  refine .bind (.ask rfl) fun (found : Option ExecutionRow) => ?_
  cases found with
  | none => exact .fail _
  | some parent =>
    dsimp only
    split
    · exact finishes_fail
    refine .bind (keeps_ancestry parent.id) fun ids => ?_
    split
    · exact finishes_fail
    refine .bind (.ask rfl) fun (count : ℕ) => ?_
    split
    · exact finishes_fail
    refine .bind (.orThrow (.ask rfl)) fun target => ?_
    split
    · exact finishes_fail
    exact .bind (.ofExcept _) fun _ => .bind (.ask rfl) fun _ => .bind (.ask rfl) fun _ =>
      .bind (.ask rfl) fun _ => .bind (.ask rfl) fun _ => finishes_wait

/-- A subworkflow finishes its step if its child is completed. -/
lemma finishes_execute (hid : row.id = id) (executionId : String) :
    Finishes e allowed fr id ServiceOutcome.isCompleted
      (execute p executionId context step row) := by
  refine .bind (.orThrow (.ask rfl)) fun raw => .bind (.ofExcept _) fun config =>
    .bind (.ask rfl) fun (found : Option ExecutionRow) => ?_
  cases found with
  | none => exact finishes_start executionId raw config
  | some child =>
    dsimp only
    split
    case h_5 =>
      exact .bind (.ofExcept _) fun output => .bind (.ask rfl) fun _ =>
        .writeStep hid rfl (fun _ => rfl) rfl
    case h_6 | h_7 =>
      split
      · exact finishes_fail
      · exact finishes_start executionId raw config
    all_goals
      refine .bind (.ask rfl) fun (t : ℕ) => ?_
      split
      · refine .bind (.ask rfl) fun _ => ?_
        split
        · exact finishes_fail
        · exact finishes_wait
      · exact finishes_wait

end Subworkflow

/-! ## Loops -/

/-- Results may be put into the contexts of all paths that are longer. -/
def AllowedBelow (allowed : ContextId → String → Prop) (length : ℕ) : Prop :=
  ∀ (path key : String), length < path.length →
    allowed (.iteration path) key ∧ allowed (.caught path) key

lemma AllowedBelow.mono {n m : ℕ} (h : AllowedBelow allowed n) (hle : n ≤ m) :
    AllowedBelow allowed m :=
  fun path key hlt => h path key (hle.trans_lt hlt)

/-- A service for try blocks that keeps to the protocol, in all frames of paths that are longer. -/
def TryServes (e : String) (allowed : ContextId → String → Prop) (length : ℕ)
    (tryCatch : TryInput → Eng ServiceOutcome) : Prop :=
  ∀ input : TryInput, length < input.parentPath.length →
    input.parentContext = .iteration input.parentPath →
    input.row.id = ⟨e, input.step.key, input.parentPath⟩ →
    Finishes e allowed ⟨input.parentContext, input.parentPath⟩ input.row.id
      ServiceOutcome.isCompleted (tryCatch input)

variable {graph : RuntimeGraph} {executionPath : String}

namespace ForEach

variable {tryCatch : TryInput → Eng ServiceOutcome} {input : ForEachInput} {config : Config}

lemma keeps_during {α : Type} {call : Eng α} {state : LoopState} (h : Keeps e allowed fr call) :
    Keeps e allowed fr (during state call) :=
  h.handle fun _ => .fail _

lemma finishes_during {α : Type} {call : Eng α} {finished : α → Bool} {state : LoopState}
    (h : Finishes e allowed fr id finished call) :
    Finishes e allowed fr id finished (during state call) :=
  h.handle fun _ => .fail _

section Body

/-! The body of an iteration, in its own frame. -/

variable (hallowed : ∀ key, allowed (.iteration executionPath) key)

include hallowed

lemma keeps_skipUnselected (iterationIndex : ℕ) (controlKey selected : String) :
    Keeps e allowed ⟨.iteration executionPath, executionPath⟩
      (skipUnselected p e graph input executionPath iterationIndex controlKey selected) := by
  refine .each fun key _ => ?_
  split
  case h_1 => exact .ret _
  case h_2 step hstep =>
    obtain rfl : step.key = key := key_of_stepRow? hstep
    refine (plain_ensure (some iterationIndex)).readsRow.bind fun row hid => ?_
    split
    · exact .ret _
    · exact .of_finishes (finishes_skip hid _) fun v₀ v _ hin hfinishing =>
        meets_setStepResult hin hfinishing rfl (hallowed _) fun _ => .ret _

lemma keeps_stepDone (step : StepDefinition) (cursor : Cursor) (output : Option Json)
    (status : StepExecutionStatus) :
    Keeps e allowed ⟨.iteration executionPath, executionPath⟩
      (stepDone p e graph input config executionPath step cursor output status) := by
  unfold stepDone
  split
  · exact .fail _
  · split
    · exact (keeps_during (keeps_skipUnselected hallowed _ _ _)).bind fun _ => plain_advance.keeps
    · exact plain_advance.keeps

/-- A step of the body that is neither a try block nor a subworkflow. -/
lemma keeps_plainStep (hid : row.id = ⟨e, step.key, executionPath⟩) (cursor : Cursor) :
    Keeps e allowed ⟨.iteration executionPath, executionPath⟩
      (plainStep p e graph input config executionPath step row cursor) := by
  refine (keeps_during (.ask rfl)).bind fun t => ?_
  split
  · exact plain_suspend.keeps
  split
  · exact .of_finishes (finishes_during (finishes_completeWait hid)) fun v₀ v _ hin hfinishing =>
      meets_setStepResult hin hfinishing rfl (hallowed _) fun _ => keeps_stepDone hallowed _ _ _ _
  split
  · exact plain_iterationFailed.keeps
  split
  · exact keeps_stepDone hallowed _ _ _ _
  have hattempted : Finishes e allowed ⟨.iteration executionPath, executionPath⟩
      ⟨e, step.key, executionPath⟩ (Sum.elim StepOutcome.isCompleted fun _ => false)
      (((Flowmind.execute p (.iteration executionPath) step row).bind
        fun outcome => pure (.inl outcome)).handle
          fun failure => pure (.inr failure) : Eng (StepOutcome ⊕ Failure)) :=
    .handle (.map (finishes_execute hid) fun _ => rfl) fun _ => .ret rfl
  refine .of_finishes (finishes_during hattempted) fun v₀ v outcome hin hfinishing => ?_
  rcases outcome with (result | nextRetryAt | _) | failure
  · exact meets_setStepResult hin hfinishing rfl (hallowed _) fun _ => keeps_stepDone hallowed _ _ _ _
  · exact meets_since hin hfinishing.since plain_suspend.keeps
  · exact meets_since hin hfinishing.since plain_suspend.keeps
  · refine meets_since hin hfinishing.since ?_
    refine (keeps_during (.ask rfl)).bind fun (failed : Option StepRow) => ?_
    cases failed with
    | none => exact .fail _
    | some failed => exact plain_iterationFailed.keeps

/-- One step of the body. -/
lemma keeps_bodyStep {length : ℕ} (hlength : length < executionPath.length)
    (htry : TryServes e allowed length tryCatch) (cursor : Cursor) :
    Keeps e allowed ⟨.iteration executionPath, executionPath⟩
      (bodyStep p e graph tryCatch input config executionPath cursor) := by
  unfold bodyStep
  split
  · exact .ret _
  split
  · exact .fail _
  split
  · exact .fail _
  case h_2 step hstep =>
    split
    · exact (keeps_during (.setStepResult (hallowed _) _ _)).bind fun _ => plain_advance.keeps
    refine (OfPlain.readsRow (composed_during plain_bodyRow)).bind fun row hid => ?_
    split
    · unfold tryStep
      split
      · exact .fail _
      · split
        · exact (keeps_during (.setStepResult (hallowed _) _ _)).bind fun _ => .ret _
        · have hserve := htry ⟨step, row, .iteration executionPath, executionPath,
            some cursor.state.nextIndex⟩ hlength rfl hid
          refine .of_finishes (finishes_during (hid ▸ hserve)) fun v₀ v outcome hin hfinishing => ?_
          cases outcome with
          | waiting => exact meets_since hin hfinishing.since plain_suspend.keeps
          | completed output =>
            exact meets_setStepResult hin hfinishing rfl (hallowed _) fun _ => plain_advance.keeps
    split
    · refine .of_finishes (finishes_during (Subworkflow.finishes_execute hid e))
        fun v₀ v outcome hin hfinishing => ?_
      cases outcome with
      | waiting => exact meets_since hin hfinishing.since plain_suspend.keeps
      | completed output =>
        exact meets_setStepResult hin hfinishing rfl (hallowed _) fun _ => plain_advance.keeps
    · exact keeps_plainStep hallowed hid cursor

end Body

section Execute

variable {length : ℕ} (hlength : length ≤ input.parentPath.length)
  (hbelow : AllowedBelow allowed length) (htry : TryServes e allowed length tryCatch)

include hlength hbelow htry

lemma finishes_iteration (state : LoopState) :
    Finishes e allowed ⟨context, input.parentPath⟩ input.row.id
      (Sum.elim (fun _ => false) ServiceOutcome.isCompleted)
      (iteration p e graph tryCatch input config state) := by
  have hlt := length_lt_iterationPath input.parentPath input.step.key state.nextIndex
  have hframe : (⟨context, input.parentPath⟩ : OwnFrame).path.length <
      (iterationPath input.parentPath input.step.key state.nextIndex).length := hlt
  unfold iteration
  split
  · refine .bind (keeps_during (.ask rfl)) fun persisted => ?_
    refine Finishes.frame ⟨.iteration _, _⟩ hframe (.loop (keeps_during (.exhausted _))
      (keeps_bodyStep (fun key => (hbelow _ key (hlength.trans_lt hlt)).1) (hlength.trans_lt hlt) htry)
      _ _) _ fun exit => ?_
    cases exit with
    | waiting nextRetryAt waitReason => exact .ret rfl
    | finished cursor => exact .bind plain_checkpoint.keeps fun _ => .ret rfl
  · exact .bind (keeps_during (.ask rfl)) fun _ => .writeStep rfl rfl (fun _ => rfl) rfl

omit hlength hbelow htry in
lemma keeps_startState : Keeps e allowed fr (startState p input config) := by
  unfold startState
  split
  · exact .ret _
  · refine (keeps_during (.orThrow (.ask rfl))).bind fun source => ?_
    split
    · split
      · exact .fail _
      split
      · exact .fail _
      exact (keeps_during (.ask rfl)).bind fun _ =>
        (keeps_during (.writeStep _ rfl)).bind fun _ => .ret _
    · exact .fail _

/-- A loop finishes its step if it is completed. -/
lemma finishes_execute :
    Finishes e allowed ⟨context, input.parentPath⟩ input.row.id ServiceOutcome.isCompleted
      (execute p e graph tryCatch input) := by
  refine .handle (.bind keeps_startState fun state =>
    .loop (finishes_during (.exhausted _)) (finishes_iteration hlength hbelow htry) _ _) ?_
  rintro ⟨state, failure⟩
  exact .bind (.ask rfl) fun _ => .bind (.writeStep _ rfl) fun _ => .fail _

end Execute

end ForEach

/-! ## Try blocks -/

/-- A service for loops that keeps to the protocol, in all frames of paths that are longer. -/
def LoopServes (e : String) (allowed : ContextId → String → Prop) (length : ℕ)
    (forEach : ForEachInput → Eng ServiceOutcome) : Prop :=
  ∀ (input : ForEachInput) (context : ContextId), length < input.parentPath.length →
    Finishes e allowed ⟨context, input.parentPath⟩ input.row.id ServiceOutcome.isCompleted
      (forEach input)

namespace TryCatch

variable {forEach : ForEachInput → Eng ServiceOutcome} {input : TryInput} {entries : Entries}
  {region : Region}

lemma finishes_throwFailure {α : Type} {finished : α → Bool} (failure : Failure) (origin : Option StepId) :
    Finishes e allowed fr id finished (throwFailure p failure origin : Eng α) :=
  .bind plain_asFailure.keeps fun _ => .fail _

section Region

/-! The steps of a region, in its context. -/

section

variable (hallowed : allowed context step.key) (hid : row.id = ⟨e, step.key, executionPath⟩)
include hallowed hid

lemma keeps_loopStep {length : ℕ} (hlength : length < executionPath.length)
    (hloop : LoopServes e allowed length forEach) (cursor : Cursor) :
    Keeps e allowed ⟨context, executionPath⟩
      (loopStep graph forEach input context executionPath step row cursor) := by
  unfold loopStep
  split
  case h_1 body done _ _ =>
    split
    · exact (Keeps.setStepResult hallowed _ _).bind fun _ => .ret _
    have hserve := hloop ⟨step, row, body, done, graph.regionKeys body done, executionPath⟩ context
      hlength
    refine .of_finishes (hid ▸ hserve) fun v₀ v outcome hin hfinishing => ?_
    cases outcome with
    | waiting => exact meets_since hin hfinishing.since plain_suspend.keeps
    | completed output => exact meets_setStepResult hin hfinishing rfl hallowed fun _ => .ret _
  case h_2 => exact .fail _

lemma keeps_subworkflowStep (cursor : Cursor) :
    Keeps e allowed ⟨context, executionPath⟩
      (subworkflowStep p e graph input region context step row cursor) := by
  refine .of_finishes ((Subworkflow.finishes_execute hid e).handle fun failure =>
    finishes_throwFailure failure _) fun v₀ v outcome hin hfinishing => ?_
  cases outcome with
  | waiting => exact meets_since hin hfinishing.since plain_suspend.keeps
  | completed output =>
    exact meets_setStepResult hin hfinishing rfl hallowed fun _ => plain_advance.keeps

/-- A step of a region that is neither a loop nor a subworkflow. -/
lemma keeps_plainStep (cursor : Cursor) :
    Keeps e allowed ⟨context, executionPath⟩
      (plainStep p graph input region context step row cursor) := by
  refine Keeps.bind (.ask rfl) fun t => ?_
  split
  · exact plain_suspend.keeps
  split
  · exact .of_finishes (finishes_completeWait hid) fun v₀ v _ hin hfinishing =>
      meets_setStepResult hin hfinishing rfl hallowed fun _ => plain_advance.keeps
  split
  · exact plain_failureFromRow.keeps.bind fun _ => .fail _
  split
  · exact plain_advance.keeps
  refine .of_finishes ((Flowmind.finishes_execute hid).handle fun failure =>
    finishes_throwFailure failure _) fun v₀ v outcome hin hfinishing => ?_
  cases outcome with
  | completed result =>
    exact meets_setStepResult hin hfinishing rfl hallowed fun _ => plain_advance.keeps
  | retrying nextRetryAt => exact meets_since hin hfinishing.since plain_suspend.keeps
  | durableWait => exact meets_since hin hfinishing.since plain_suspend.keeps

end

variable (hallowed : ∀ key ∈ region.keys, allowed context key)
include hallowed

/-- One step of a region. -/
lemma keeps_regionStep {length : ℕ} (hlength : length < executionPath.length)
    (hloop : LoopServes e allowed length forEach) (cursor : Cursor) :
    Keeps e allowed ⟨context, executionPath⟩
      (regionStep p e graph forEach input region context executionPath cursor) := by
  unfold regionStep
  split
  · exact .ret _
  split
  · exact .fail _
  case isFalse hmem =>
  split
  · exact .fail _
  case h_2 step hstep =>
    have hkey : allowed context step.key :=
      hallowed _ (by rw [key_of_stepRow? hstep]; exact not_not.mp hmem)
    split
    · exact (Keeps.setStepResult hkey _ _).bind fun _ => plain_advance.keeps
    refine plain_regionRow.readsRow.bind fun row hid => ?_
    split
    · exact keeps_loopStep hkey hid hlength hloop cursor
    split
    · exact keeps_subworkflowStep hkey hid cursor
    · exact keeps_plainStep hkey hid cursor

section

variable (hlength : fr.path.length ≤ input.parentPath.length)
  (hloop : LoopServes e allowed input.parentPath.length forEach) (state : TryState)
include hlength hloop

lemma keeps_runRegion :
    Keeps e allowed fr (runRegion p e graph forEach input region context state) := by
  have hlt := length_lt_regionPath input.parentPath input.step.key region.name.name
  refine Keeps.bind (.ask rfl) fun persisted => ?_
  exact .frame ⟨context, _⟩ (hlength.trans_lt hlt)
    (.loop (.exhausted _) (keeps_regionStep hallowed hlt hloop) _ _) _

lemma keeps_tryRegion :
    Keeps e allowed fr (tryRegion p e graph forEach input region context state) :=
  ((keeps_runRegion hallowed hlength hloop state).bind fun _ => .ret _).handle fun _ => .ret _

end

end Region

lemma keeps_during {α : Type} {call : Eng α} {state : TryState} (h : Keeps e allowed fr call) :
    Keeps e allowed fr (during state call) :=
  h.handle fun _ => .fail _

/-- The steps of the body and of the finally region of a try block. -/
def Entries.blockKeys (graph : RuntimeGraph) (entries : Entries) : List String :=
  graph.regionKeys entries.bodyEntry entries.boundary ++
    (entries.finallyEntry.map fun entry => graph.regionKeys entry entries.done).getD []

/-- The path of a frame, as the elaborator does not find it by itself. -/
lemma length_path_le (context : ContextId) (executionPath : String) :
    (⟨context, executionPath⟩ : OwnFrame).path.length ≤ executionPath.length :=
  le_rfl

section Phases

variable (hallowed : ∀ key ∈ entries.blockKeys graph, allowed input.parentContext key)
  (hbelow : AllowedBelow allowed input.parentPath.length)
  (hloop : LoopServes e allowed input.parentPath.length forEach)

include hallowed hloop

lemma keeps_bodyPhase (state : TryState) (primary : Option PrimaryFailure) :
    Keeps e allowed ⟨input.parentContext, input.parentPath⟩
      (bodyPhase p e graph forEach input entries state primary) := by
  unfold bodyPhase
  split
  · exact .ret _
  refine (keeps_during (keeps_tryRegion (fun key hkey => hallowed key (by simp [Entries.blockKeys, hkey]))
    (length_path_le _ _) hloop state)).bind fun result => ?_
  split
  · exact .ret _
  · exact plain_proceed.keeps
  · exact (keeps_during plain_asFailure.keeps).bind fun _ => plain_proceed.keeps

section

variable (state : TryState) (primary : Option PrimaryFailure)

omit hallowed in
include hbelow in
lemma keeps_catchPhase :
    Keeps e allowed ⟨input.parentContext, input.parentPath⟩
      (catchPhase p e graph forEach input entries state primary) := by
  have hlt := length_lt_regionPath input.parentPath input.step.key RegionName.catch.name
  have hframe : (⟨input.parentContext, input.parentPath⟩ : OwnFrame).path.length <
      (regionPath input.parentPath input.step.key RegionName.catch.name).length := hlt
  unfold catchPhase
  split
  · exact .ret _
  split
  · exact .fail _
  -- The context of the catch region is another one, and empty at first.
  refine (keeps_during (.setSteps hframe _ _)).bind fun _ => ?_
  refine (keeps_during (keeps_tryRegion (fun key _ => (hbelow _ key hlt).2)
    (length_path_le _ _) hloop state)).bind fun result => ?_
  split
  · exact .ret _
  · exact (keeps_during (.ask rfl)).bind fun _ => plain_proceed.keeps
  · exact (keeps_during plain_asFailure.keeps).bind fun _ => plain_proceed.keeps

lemma keeps_finallyPhase :
    Keeps e allowed ⟨input.parentContext, input.parentPath⟩
      (finallyPhase p e graph forEach input entries state primary) := by
  unfold finallyPhase
  split
  · exact .ret _
  case h_2 entry hentry =>
  split
  · exact .ret _
  refine (keeps_during (keeps_tryRegion (fun key hkey => hallowed key ?_)
    (length_path_le _ _) hloop state)).bind fun result => ?_
  · simp [Entries.blockKeys, hentry, hkey]
  split
  · exact .ret _
  · exact plain_proceed.keeps
  · exact (keeps_during plain_asFailure.keeps).bind fun _ => plain_proceed.keeps

end

omit hallowed hloop in
lemma finishes_finish (state : TryState) (primary : Option PrimaryFailure) :
    Finishes e allowed fr input.row.id ServiceOutcome.isCompleted (finish input state primary) := by
  unfold finish
  split
  · split <;> exact .fail _
  · exact .bind (keeps_during (.ask rfl)) fun _ => .writeStep rfl rfl (fun _ => rfl) rfl

include hbelow

lemma finishes_runPhases (state : TryState) (primary : Option PrimaryFailure) :
    Finishes e allowed ⟨input.parentContext, input.parentPath⟩ input.row.id
      ServiceOutcome.isCompleted (runPhases p e graph forEach input entries state primary) := by
  refine .bind (keeps_bodyPhase hallowed hloop state primary) fun afterBody => ?_
  cases afterBody with
  | waiting => exact .ret rfl
  | next state primary =>
    refine .bind (keeps_catchPhase hbelow hloop state primary) fun afterCatch => ?_
    cases afterCatch with
    | waiting => exact .ret rfl
    | next state primary =>
      refine .bind (keeps_finallyPhase hallowed hloop state primary) fun afterFinally => ?_
      cases afterFinally with
      | waiting => exact .ret rfl
      | next state primary => exact finishes_finish state primary

end Phases

/-- The same for a step of the graph. -/
def blockKeys (graph : RuntimeGraph) (stepKey : String) : List String :=
  ((entries? graph stepKey).map (Entries.blockKeys graph)).getD []

/-- A try block finishes its step if it is completed. -/
lemma finishes_execute
    (hallowed : ∀ key ∈ blockKeys graph input.step.key, allowed input.parentContext key)
    (hbelow : AllowedBelow allowed input.parentPath.length)
    (hloop : LoopServes e allowed input.parentPath.length forEach) :
    Finishes e allowed ⟨input.parentContext, input.parentPath⟩ input.row.id
      ServiceOutcome.isCompleted (execute p e graph forEach input) := by
  unfold execute
  split
  · exact .fail _
  case h_2 entries hentries =>
  have hblock : ∀ key ∈ entries.blockKeys graph, allowed input.parentContext key := by
    simpa [blockKeys, hentries] using hallowed
  refine .bind plain_startState.keeps fun state =>
    .handle (finishes_runPhases hblock hbelow hloop _ _) ?_
  rintro ⟨state, failure⟩
  exact .bind plain_asFailure.keeps fun _ => .bind (.ask rfl) fun _ =>
    .bind (.writeStep _ rfl) fun _ => .fail _

end TryCatch

/-! ## All services -/

/-- **All services keep to the protocol**, whatever the depth. -/
lemma serves_services (graph : RuntimeGraph) (depth : ℕ) :
    ∀ length, AllowedBelow allowed length →
      TryServes e allowed length (services p e graph depth).tryCatch ∧
        LoopServes e allowed length (services p e graph depth).forEach := by
  induction depth with
  | zero => exact fun length _ => ⟨fun _ _ _ _ => .exhausted _, fun _ _ _ => .exhausted _⟩
  | succ depth ih =>
    intro length hbelow
    refine ⟨fun input hlt hcontext _ => ?_, fun input context hlt => ?_⟩
    · refine TryCatch.finishes_execute (fun key _ => ?_) (hbelow.mono hlt.le)
        (ih _ (hbelow.mono hlt.le)).2
      rw [hcontext]
      exact (hbelow _ key hlt).1
    · exact ForEach.finishes_execute hlt.le hbelow (ih length hbelow).1

end Flowmind
