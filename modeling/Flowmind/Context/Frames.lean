import Flowmind.Protocol.Shape

/-!
# The step results of a context

Expressions read the results of earlier steps from a context, an object in the memory of the worker.
There is one for the execution, one for each iteration of a loop and one for the catch region of a
try block; the body and the finally region of a try block run in the context around it, whose
results they replace by their own.

* `Contexts` — the step results of all contexts, which the statements of a run change.
* `FrameView` — the contexts together with the steps whose results they should have, path by path.
* `frameProtocol` — where a configuration is resolved in a context, this has the results it should
  have: those of the path it took last, and of all steps of its paths that were finished since.
* `Keeps`, `Finishes` — programs that keep to it, and those that may leave a finished step whose
  result is not yet in its context; with one rule per construct.
-/

namespace Flowmind

open Program

/-! ## Contexts -/

/-- The step results of a context. -/
abbrev StepResults : Type := String → Option ContextStep

/-- `Object.fromEntries`. -/
def fromEntries (entries : List (String × ContextStep)) : StepResults := fun key =>
  entries.foldl (fun found entry => if entry.1 = key then some entry.2 else found) none

lemma fromEntries_append (entries : List (String × ContextStep)) (entry : String × ContextStep)
    (key : String) :
    fromEntries (entries ++ [entry]) key =
      if entry.1 = key then some entry.2 else fromEntries entries key := by
  simp [fromEntries]

variable {entries : List (String × ContextStep)}

lemma fromEntries_ne_none {key : String} (h : key ∈ entries.map Prod.fst) :
    fromEntries entries key ≠ none := by
  induction entries using List.reverseRecOn with
  | nil => cases h
  | append_singleton entries entry ih =>
    rw [fromEntries_append]
    split
    · simp
    case isFalse hne =>
      refine ih ?_
      rw [List.map_append, List.mem_append] at h
      exact h.resolve_right fun hlast => hne (List.mem_singleton.mp hlast).symm

lemma mem_of_fromEntries {key : String} {result : ContextStep}
    (h : fromEntries entries key = some result) : (key, result) ∈ entries := by
  induction entries using List.reverseRecOn with
  | nil => cases h
  | append_singleton entries entry ih =>
    rw [fromEntries_append] at h
    split at h
    case isTrue hkey =>
      cases h
      simp [← hkey]
    · exact List.mem_append_left _ (ih h)

/-- The contexts of a worker. -/
abbrev Contexts : Type := ContextId → StepResults

namespace Contexts

/-- A statement changes the contexts. -/
def next (contexts : Contexts) : Statement → Contexts
  | .setSteps context _ steps => Function.update contexts context (fromEntries steps)
  | .setStepResult context stepKey result =>
    Function.update contexts context (Function.update (contexts context) stepKey (some result))
  | _ => contexts

/-- The contexts after some statements. -/
def after (contexts : Contexts) (log : List (Sigma Answer)) : Contexts :=
  log.foldl (fun contexts answered => contexts.next answered.1) contexts

@[simp] lemma after_snoc (contexts : Contexts) (log : List (Sigma Answer)) (answered : Sigma Answer) :
    contexts.after (log ++ [answered]) = (contexts.after log).next answered.1 := by
  simp [after]

end Contexts

/-! ## Steps that are done -/

/-- The contexts of a run, with what should be in them. -/
structure FrameView where
  contexts : Contexts
  /-- The context that has last taken the results of a path. -/
  owner : String → Option ContextId
  /-- The steps of a path that were done when its results were taken, or that the run has finished
  since; none once the context has taken the results of another path. -/
  kept : String → List String

variable {v v' v'' : FrameView}

namespace FrameView

/-- A worker begins. -/
def initial : FrameView where
  contexts := fun _ _ => none
  owner := fun _ => none
  kept := fun _ => []

/-- The step is done. -/
def record (v : FrameView) (id : StepId) : FrameView :=
  { v with kept := Function.update v.kept id.executionPath (id.stepKey :: v.kept id.executionPath) }

/-- A result is put into a context. -/
def setResult (v : FrameView) (context : ContextId) (stepKey : String) (result : ContextStep) :
    FrameView :=
  { v with contexts := v.contexts.next (.setStepResult context stepKey result) }

/-- A context takes the results of a path, and has those of no other. -/
def take (v : FrameView) (context : ContextId) (executionPath : String)
    (steps : List (String × ContextStep)) : FrameView where
  contexts := v.contexts.next (.setSteps context executionPath steps)
  owner := Function.update v.owner executionPath (some context)
  kept := Function.update (fun path => if v.owner path = some context then [] else v.kept path)
    executionPath (steps.map Prod.fst)

def next (v : FrameView) : Statement → FrameView
  | .setSteps context executionPath steps => v.take context executionPath steps
  | .setStepResult context stepKey result => v.setResult context stepKey result
  | .writeStep row write => if write.finishes then v.record row.id else v
  | _ => v

/-- The context of a path has the results it should have. -/
def Valid (v : FrameView) : Prop :=
  ∀ context executionPath, v.owner executionPath = some context →
    ∀ key ∈ v.kept executionPath, v.contexts context key ≠ none

/-- Paths up to a length belong to the same contexts as before. -/
def SameOwners (length : ℕ) (v v' : FrameView) : Prop :=
  ∀ path : String, path.length ≤ length → v'.owner path = v.owner path

variable {context : ContextId} {executionPath key : String} {n m : ℕ}

lemma SameOwners.refl : SameOwners n v v := fun _ _ => rfl

lemma SameOwners.trans (h : SameOwners n v v') (h' : SameOwners n v' v'') : SameOwners n v v'' :=
  fun path hpath => (h' path hpath).trans (h path hpath)

lemma SameOwners.mono (h : SameOwners n v v') (hle : m ≤ n) : SameOwners m v v' :=
  fun path hpath => h path (hpath.trans hle)

variable {result : ContextStep}

/-- A new result takes none away. -/
lemma steps_setResult_ne_none {stepKey : String} {other : ContextId}
    (h : v.contexts other key ≠ none) :
    (v.setResult context stepKey result).contexts other key ≠ none := by
  simp only [setResult, Contexts.next, Function.update_apply]
  split_ifs with hcontext
  · subst hcontext
    by_cases hkey : key = stepKey
    · simp [hkey]
    · simpa [Function.update_of_ne hkey] using h
  · exact h

lemma Valid.setResult (h : v.Valid) (context : ContextId) (stepKey : String)
    (result : ContextStep) : (v.setResult context stepKey result).Valid :=
  fun other path howner key hkey => steps_setResult_ne_none (h other path howner key hkey)

/-- A step that is done and whose result is put into the context of its path. -/
lemma Valid.record_setResult (h : v.Valid) {id : StepId}
    (howner : v.owner id.executionPath = some context) :
    ((v.record id).setResult context id.stepKey result).Valid := by
  intro other path hother key hkey
  simp only [FrameView.setResult, record, Function.update_apply] at hkey
  by_cases hid : path = id.executionPath ∧ key = id.stepKey
  · -- The new step: its path belongs to the context.
    obtain ⟨rfl, rfl⟩ := hid
    obtain rfl : other = context := Option.some.inj (hother.symm.trans howner)
    simp [FrameView.setResult, Contexts.next]
  · refine steps_setResult_ne_none (h other path hother key ?_)
    split_ifs at hkey with hpath'
    · rcases List.mem_cons.mp hkey with rfl | hmem
      · exact absurd ⟨hpath', rfl⟩ hid
      · rw [hpath']
        exact hmem
    · exact hkey

lemma Valid.take (h : v.Valid) (context : ContextId) (executionPath : String)
    (steps : List (String × ContextStep)) : (v.take context executionPath steps).Valid := by
  intro other path howner key hkey
  simp only [FrameView.take, Contexts.next, Function.update_apply] at howner hkey ⊢
  by_cases hpath : path = executionPath
  · rw [if_pos hpath] at howner hkey
    cases howner
    rw [if_pos rfl]
    exact fromEntries_ne_none hkey
  · rw [if_neg hpath] at howner hkey
    split_ifs at hkey with hlost
    · cases hkey
    · -- The path belongs to another context, which has not changed.
      have hother : other ≠ context := fun heq => hlost (heq ▸ howner)
      rw [if_neg hother]
      exact h other path howner key hkey

lemma SameOwners.take (h : n < executionPath.length) (context : ContextId)
    (steps : List (String × ContextStep)) :
    SameOwners n v (v.take context executionPath steps) := by
  intro path hpath
  refine Function.update_of_ne ?_ _ _
  rintro rfl
  omega

lemma owner_take (v : FrameView) (context : ContextId) (executionPath : String)
    (steps : List (String × ContextStep)) :
    (v.take context executionPath steps).owner executionPath = some context :=
  Function.update_self ..

end FrameView

/-! ## The protocol -/

/-- The context has what it should have. -/
def FrameView.Sees (v : FrameView) (context : ContextId) : Prop :=
  ∀ executionPath, v.owner executionPath = some context →
    ∀ key ∈ v.kept executionPath, v.contexts context key ≠ none

/-- The protocol; results may only be put into contexts as `allowed`. -/
def frameProtocol (executionId : String) (allowed : ContextId → String → Prop) :
    Protocol Statement Answer FrameView where
  ok v statement :=
    (∀ context row, statement.resolves = some (context, row) → v.Sees context) ∧
      ∀ context stepKey result, statement = .setStepResult context stepKey result →
        allowed context stepKey
  rely := answersFor executionId
  next v statement _ := v.next statement

lemma FrameView.next_of_isPassive {statement : Statement} (h : statement.isPassive = true) :
    v.next statement = v := by
  cases statement with
  | setSteps | setStepResult => cases h
  | writeStep row write =>
    have hwrite : write.finishes = false := by simpa [Statement.isPassive] using h
    simp [FrameView.next, hwrite]
  | _ => rfl

/-! ## Programs -/

/-- The frame a program runs in: a context and the path of its steps. -/
structure OwnFrame where
  context : ContextId
  path : String

/-- The state before, seen from a frame: its path belongs to its context. -/
structure FrameView.In (fr : OwnFrame) (v : FrameView) : Prop where
  valid : v.Valid
  owner : v.owner fr.path = some fr.context

/-- The state after a part of a run. -/
structure FrameView.Since (fr : OwnFrame) (v v' : FrameView) : Prop where
  valid : v'.Valid
  same : FrameView.SameOwners fr.path.length v v'

section Programs

variable {e : String} {allowed : ContextId → String → Prop} {fr : OwnFrame} {ε ε' α β : Type}

lemma FrameView.In.since (h : v.In fr) : FrameView.Since fr v v := ⟨h.valid, .refl⟩

lemma FrameView.Since.in (h : FrameView.Since fr v v') (hin : v.In fr) : v'.In fr :=
  ⟨h.valid, (h.same _ le_rfl).trans hin.owner⟩

lemma FrameView.Since.trans (h : FrameView.Since fr v v') (h' : FrameView.Since fr v' v'') :
    FrameView.Since fr v v'' :=
  ⟨h'.valid, h.same.trans h'.same⟩

/-- The program keeps to the protocol and leaves its frame as it found it. -/
def Keeps (e : String) (allowed : ContextId → String → Prop) (fr : OwnFrame)
    (program : Prog Statement Answer ε α) : Prop :=
  ∀ v, v.In fr → Meets (frameProtocol e allowed) (fun v' _ => FrameView.Since fr v v')
    (fun v' _ => FrameView.Since fr v v') program v

variable {program : Prog Statement Answer ε α}

/-- What comes after a part of a run. -/
lemma meets_since {v₀ : FrameView} (hin : v₀.In fr) (hsince : FrameView.Since fr v₀ v)
    (h : Keeps e allowed fr program) :
    Meets (frameProtocol e allowed) (fun v' _ => FrameView.Since fr v₀ v')
      (fun v' _ => FrameView.Since fr v₀ v') program v :=
  Meets.mono (fun _ _ h => hsince.trans h) (fun _ _ h => hsince.trans h) (h v (hsince.in hin))

variable {statement : Statement} {post : FrameView → β → Prop} {exc : FrameView → ε → Prop}
  {f : Answer statement → Prog Statement Answer ε β}

/-- One statement that changes no context and finishes no step. -/
lemma meets_passive (hvalid : v.Valid) (hpassive : statement.isPassive = true)
    (hf : ∀ answer, answersFor e statement answer →
      Meets (frameProtocol e allowed) post exc (f answer) v) :
    Meets (frameProtocol e allowed) post exc (Prog.ask statement f) v := by
  refine ⟨⟨fun context row _ => hvalid context, ?_⟩, fun answer hrely => ?_⟩
  · rintro context stepKey result rfl
    cases hpassive
  · have hnext : (frameProtocol e allowed).next v statement answer = v :=
      FrameView.next_of_isPassive hpassive
    rw [hnext]
    exact hf answer hrely

/-- The same for one that resolves nothing, in any state. -/
lemma meets_quiet (hpassive : statement.isPassive = true) (hresolves : statement.resolves = none)
    (hf : ∀ answer, Meets (frameProtocol e allowed) post exc (f answer) v) :
    Meets (frameProtocol e allowed) post exc (Prog.ask statement f) v := by
  refine ⟨⟨fun context row heq => ?_, ?_⟩, fun answer _ => ?_⟩
  · rw [hresolves] at heq
    cases heq
  · rintro context stepKey result rfl
    cases hpassive
  · have hnext : (frameProtocol e allowed).next v statement answer = v :=
      FrameView.next_of_isPassive hpassive
    rw [hnext]
    exact hf answer

namespace Keeps

lemma ret (a : α) : Keeps e allowed fr (.ret a : Prog Statement Answer ε α) := fun _ h => h.since

lemma fail (failure : ε) : Keeps e allowed fr (.fail failure : Prog Statement Answer ε α) :=
  fun _ h => h.since

variable {program : Prog Statement Answer ε α}

lemma bind {f : α → Prog Statement Answer ε β} (h : Keeps e allowed fr program)
    (hf : ∀ a, Keeps e allowed fr (f a)) : Keeps e allowed fr (program.bind f) :=
  fun v hin => (h v hin).bind fun _ a hsince => meets_since hin hsince (hf a)

lemma handle {h : ε → Prog Statement Answer ε' α} (hprogram : Keeps e allowed fr program)
    (hh : ∀ failure, Keeps e allowed fr (h failure)) : Keeps e allowed fr (program.handle h) :=
  fun v hin => (hprogram v hin).handle fun _ failure hsince => meets_since hin hsince (hh failure)

lemma loop {τ : Type} {stuck : Prog Statement Answer ε α}
    {body : τ → Prog Statement Answer ε (τ ⊕ α)} (hstuck : Keeps e allowed fr stuck)
    (hbody : ∀ t, Keeps e allowed fr (body t)) (fuel : ℕ) (t : τ) :
    Keeps e allowed fr (Prog.loop stuck body fuel t) := by
  intro v hin
  refine Meets.loop (fun _ v' _ => FrameView.Since fr v v')
    (fun v' _ hsince => meets_since hin hsince hstuck) (fun _ v' t hsince => ?_) fuel v t hin.since
  refine (meets_since hin hsince (hbody t)).mono (fun _ r h => ?_) fun _ _ h => h
  cases r <;> exact h

lemma each {τ : Type} {body : τ → Prog Statement Answer ε PUnit} {items : List τ}
    (h : ∀ item ∈ items, Keeps e allowed fr (body item)) :
    Keeps e allowed fr (Prog.each body items) := by
  intro v hin
  refine (Meets.each (fun left v' => (∀ item ∈ left, item ∈ items) ∧ FrameView.Since fr v v')
    (fun item left v' ⟨hleft, hsince⟩ => ?_) items v ⟨fun _ => id, hin.since⟩).mono
    (fun _ _ h => h.2) fun _ _ h => h
  refine (meets_since hin hsince (h item (hleft item (by simp)))).mono (fun _ _ h => ?_) fun _ _ h => h
  exact ⟨fun item' hmem => hleft item' (by simp [hmem]), h⟩

lemma ofExcept (r : Except ε α) :
    Keeps e allowed fr (Prog.ofExcept r : Prog Statement Answer ε α) :=
  fun _ hin => .ofExcept (fun _ _ => hin.since) fun _ _ => hin.since

/-- A statement that changes no context and finishes no step. -/
lemma ask (h : statement.isPassive = true) : Keeps e allowed fr (Eng.ask statement) :=
  fun _ hin => meets_passive hin.valid h fun _ _ => hin.since

/-- The same for one that may be refused. -/
lemma orThrow {answer : Eng (Except Failure α)} (h : Keeps e allowed fr answer) :
    Keeps e allowed fr (Eng.orThrow answer) :=
  h.bind ofExcept

/-- A write that does not finish its step. -/
lemma writeStep (row : StepRow) {write : StepWrite} (h : write.finishes = false) :
    Keeps e allowed fr (Eng.writeStep row write) :=
  .ask (by simp [Statement.isPassive, h])

/-- A loop out of fuel. -/
lemma exhausted (loop : LoopName) : Keeps e allowed fr (Eng.exhausted loop : Eng α) :=
  fun _ hin => meets_passive hin.valid rfl fun answer => nomatch answer

/-- A result that is put into a context. -/
lemma setStepResult {context : ContextId} {stepKey : String} (h : allowed context stepKey)
    (status : StepExecutionStatus) (output : Option Json) :
    Keeps e allowed fr (Eng.setStepResult context stepKey status output) := by
  refine fun v hin => ⟨⟨by simp [Statement.resolves], ?_⟩, fun _ _ => ⟨hin.valid.setResult _ _ _, ?_⟩⟩
  · rintro _ _ _ ⟨⟩
    exact h
  · exact fun _ _ => rfl

/-- A context takes the results of a longer path. -/
lemma setSteps {executionPath : String} (hlength : fr.path.length < executionPath.length)
    (context : ContextId) (steps : List (String × ContextStep)) :
    Keeps e allowed fr (Eng.setSteps context executionPath steps) :=
  fun _ hin => ⟨⟨by simp [Statement.resolves], by simp⟩, fun _ _ =>
    ⟨hin.valid.take _ _ _, .take hlength _ _⟩⟩

/-- What happens in a longer path happens in this one. -/
lemma within {inner : OwnFrame} (hlength : fr.path.length ≤ inner.path.length)
    (h : Keeps e allowed inner program) (hin : v.In inner) :
    Meets (frameProtocol e allowed) (fun v' _ => FrameView.Since fr v v')
      (fun v' _ => FrameView.Since fr v v') program v :=
  Meets.mono (fun _ _ h => ⟨h.valid, h.same.mono hlength⟩) (fun _ _ h => ⟨h.valid, h.same.mono hlength⟩)
    (h v hin)

/-- A context takes the results of a longer path, for a part that runs there. -/
lemma frame (inner : OwnFrame) (hlength : fr.path.length < inner.path.length)
    (h : Keeps e allowed inner program) (steps : List (String × ContextStep)) :
    Keeps e allowed fr (Prog.ask (.setSteps inner.context inner.path steps) fun _ => program) := by
  refine fun v hin => ⟨⟨by simp [Statement.resolves], by simp⟩, fun _ _ => ?_⟩
  have hsame : FrameView.SameOwners fr.path.length v (v.take inner.context inner.path steps) :=
    .take hlength _ _
  exact Meets.mono (fun _ _ h => ⟨h.valid, hsame.trans h.same⟩)
    (fun _ _ h => ⟨h.valid, hsame.trans h.same⟩)
    (within hlength.le h ⟨hin.valid.take _ _ _, FrameView.owner_take ..⟩)

end Keeps

/-- The program reads or creates the row of a step execution. -/
def ReadsRow (e : String) (allowed : ContextId → String → Prop) (fr : OwnFrame) (id : StepId)
    (program : Prog Statement Answer ε StepRow) : Prop :=
  ∀ v, v.In fr → Meets (frameProtocol e allowed)
    (fun v' row => FrameView.Since fr v v' ∧ row.id = id) (fun v' _ => FrameView.Since fr v v') program v

variable {id : StepId}

lemma ReadsRow.bind {program : Prog Statement Answer ε StepRow}
    {f : StepRow → Prog Statement Answer ε α} (h : ReadsRow e allowed fr id program)
    (hf : ∀ row, row.id = id → Keeps e allowed fr (f row)) : Keeps e allowed fr (program.bind f) :=
  fun v hin => (h v hin).bind fun _ row ⟨hsince, hid⟩ => meets_since hin hsince (hf row hid)

/-! ## Parts that finish a step -/

/-- The state after a part of a run that may have finished a step. -/
def FrameView.Finishing (fr : OwnFrame) (id : StepId) (finished : Bool) (v v' : FrameView) : Prop :=
  ∃ v₁, FrameView.Since fr v v₁ ∧ v' = if finished then v₁.record id else v₁

lemma FrameView.Finishing.since (h : FrameView.Finishing fr id false v v') :
    FrameView.Since fr v v' := by
  obtain ⟨v₁, hsince, rfl⟩ := h
  exact hsince

/-- The part keeps to the protocol; `finished` tells from its result whether the step is done. -/
def Finishes (e : String) (allowed : ContextId → String → Prop) (fr : OwnFrame) (id : StepId)
    (finished : α → Bool) (program : Prog Statement Answer ε α) : Prop :=
  ∀ v, v.In fr → Meets (frameProtocol e allowed)
    (fun v' a => FrameView.Finishing fr id (finished a) v v')
    (fun v' _ => FrameView.Since fr v v') program v

/-- What comes after a part that may have finished a step. -/
lemma Keeps.of_finishes {finished : α → Bool} {f : α → Prog Statement Answer ε β}
    (h : Finishes e allowed fr id finished program)
    (hf : ∀ v₀ v a, v₀.In fr → FrameView.Finishing fr id (finished a) v₀ v →
      Meets (frameProtocol e allowed) (fun v' _ => FrameView.Since fr v₀ v')
        (fun v' _ => FrameView.Since fr v₀ v') (f a) v) : Keeps e allowed fr (program.bind f) :=
  fun v hin => (h v hin).bind fun v' a hfinishing => hf v v' a hin hfinishing

namespace Finishes

variable {finished : α → Bool}

lemma ret {a : α} (h : finished a = false) :
    Finishes e allowed fr id finished (.ret a : Prog Statement Answer ε α) :=
  fun v hin => ⟨v, hin.since, by rw [h, if_neg (by simp)]⟩

lemma fail (failure : ε) :
    Finishes e allowed fr id finished (.fail failure : Prog Statement Answer ε α) :=
  fun _ hin => hin.since

/-- A loop out of fuel. -/
lemma exhausted (loop : LoopName) : Finishes e allowed fr id finished (Eng.exhausted loop : Eng α) :=
  fun _ hin => meets_passive hin.valid rfl fun answer => nomatch answer

/-- The same after an earlier part. -/
lemma after (h : Finishes e allowed fr id finished program) (hin : v.In fr)
    (hsince : FrameView.Since fr v v') :
    Meets (frameProtocol e allowed) (fun v'' a => FrameView.Finishing fr id (finished a) v v'')
      (fun v'' _ => FrameView.Since fr v v'') program v' := by
  refine (h v' (hsince.in hin)).mono ?_ fun _ _ h => hsince.trans h
  rintro v'' a ⟨v₁, hsince', rfl⟩
  exact ⟨v₁, hsince.trans hsince', rfl⟩

variable {program : Prog Statement Answer ε β} {f : β → Prog Statement Answer ε α}

/-- What comes before does not finish the step. -/
lemma bind (h : Keeps e allowed fr program) (hf : ∀ b, Finishes e allowed fr id finished (f b)) :
    Finishes e allowed fr id finished (program.bind f) :=
  fun v hin => (h v hin).bind fun _ b hsince => (hf b).after hin hsince

/-- A part that runs in a longer path comes before. -/
lemma frame (inner : OwnFrame) (hlength : fr.path.length < inner.path.length)
    (h : Keeps e allowed inner program) (steps : List (String × ContextStep))
    (hf : ∀ b, Finishes e allowed fr id finished (f b)) :
    Finishes e allowed fr id finished
      (Prog.ask (.setSteps inner.context inner.path steps) fun _ => program.bind f) :=
  bind (Keeps.frame inner hlength h steps) hf

/-- The result in another form. -/
lemma map {finished' : β → Bool} {g : β → α} (h : Finishes e allowed fr id finished' program)
    (hg : ∀ b, finished (g b) = finished' b) :
    Finishes e allowed fr id finished (program.bind fun b => .ret (g b)) := by
  refine fun v hin => (h v hin).bind fun v' b hfinishing => ?_
  rw [meets_ret, hg]
  exact hfinishing

/-- What is done about errors. -/
lemma handle {program : Prog Statement Answer ε α} {h : ε → Prog Statement Answer ε' α}
    (hprogram : Finishes e allowed fr id finished program)
    (hh : ∀ failure, Finishes e allowed fr id finished (h failure)) :
    Finishes e allowed fr id finished (program.handle h) :=
  fun v hin => (hprogram v hin).handle fun _ failure hsince => (hh failure).after hin hsince

lemma loop {τ : Type} {stuck : Prog Statement Answer ε α}
    {body : τ → Prog Statement Answer ε (τ ⊕ α)}
    (hstuck : Finishes e allowed fr id finished stuck)
    (hbody : ∀ t, Finishes e allowed fr id (Sum.elim (fun _ => false) finished) (body t)) (fuel : ℕ)
    (t : τ) : Finishes e allowed fr id finished (Prog.loop stuck body fuel t) := by
  intro v hin
  refine Meets.loop (fun _ v' _ => FrameView.Since fr v v')
    (fun v' _ hsince => hstuck.after hin hsince) (fun _ v' t hsince => ?_) fuel v t hin.since
  refine ((hbody t).after hin hsince).mono (fun _ r hfinishing => ?_) fun _ _ h => h
  cases r with
  | inl t' => exact hfinishing.since
  | inr a => exact hfinishing

/-- The write that finishes the step, at the end. -/
lemma writeStep {row : StepRow} {write : StepWrite} (hid : row.id = id)
    (hwrite : write.finishes = true) {f : Answer (.writeStep row write) → Prog Statement Answer ε α}
    {a : α} (hf : ∀ found, f found = .ret a) (hfinished : finished a = true) :
    Finishes e allowed fr id finished (Prog.ask (.writeStep row write) f) := by
  refine fun v hin => ⟨⟨by simp [Statement.resolves], by simp⟩, fun found _ => ?_⟩
  have hnext : (frameProtocol e allowed).next v (.writeStep row write) found = v.record id := by
    simp [frameProtocol, FrameView.next, hwrite, hid]
  rw [hnext, hf]
  exact ⟨v, hin.since, by rw [hfinished, if_pos rfl]⟩

end Finishes

/-! ## Plain programs -/

section OfPlain

variable {post : α → Prop}

/-- Plain statements leave the state as it is. -/
lemma meets_plain (h : OfPlain e post program) (v : FrameView) :
    Meets (frameProtocol e allowed) (fun v' a => v' = v ∧ post a) (fun v' _ => v' = v) program v := by
  refine h.meets (· = v) (fun _ _ h => h) ?_ False.elim v rfl
  rintro _ statement rfl hplain
  simp only [Statement.isPlain, Bool.and_eq_true, Option.isNone_iff_eq_none] at hplain
  refine ⟨⟨fun context row hresolves => ?_, ?_⟩, fun _ _ => FrameView.next_of_isPassive hplain.1.2⟩
  · simp [hplain.2] at hresolves
  · rintro context stepKey result rfl
    exact absurd hplain.1.2 (by simp [Statement.isPassive])

lemma OfPlain.keeps (h : OfPlain e post program) : Keeps e allowed fr program := by
  refine fun v hin => (meets_plain h v).mono ?_ ?_
  · rintro _ _ ⟨rfl, -⟩
    exact hin.since
  · rintro _ _ rfl
    exact hin.since

lemma OfPlain.readsRow {program : Prog Statement Answer ε StepRow}
    (h : OfPlain e (fun row => row.id = id) program) : ReadsRow e allowed fr id program := by
  refine fun v hin => (meets_plain h v).mono ?_ ?_
  · rintro _ _ ⟨rfl, hid⟩
    exact ⟨hin.since, hid⟩
  · rintro _ _ rfl
    exact hin.since

end OfPlain

/-- The result of a step that may be done is put into the context of its frame. -/
lemma meets_setStepResult {finished : Bool} {v₀ : FrameView} {status : StepExecutionStatus}
    {output : Option Json}
    {f : Answer (.setStepResult fr.context id.stepKey ⟨status, output⟩) → Prog Statement Answer ε β}
    (hin : v₀.In fr) (h : FrameView.Finishing fr id finished v₀ v)
    (hpath : id.executionPath = fr.path) (hallowed : allowed fr.context id.stepKey)
    (hf : ∀ answer, Keeps e allowed fr (f answer)) :
    Meets (frameProtocol e allowed) (fun v' _ => FrameView.Since fr v₀ v')
      (fun v' _ => FrameView.Since fr v₀ v')
      (Prog.ask (.setStepResult fr.context id.stepKey ⟨status, output⟩) f) v := by
  refine ⟨⟨by simp [Statement.resolves], ?_⟩, fun answer _ => meets_since hin ?_ (hf answer)⟩
  · rintro _ _ _ ⟨⟩
    exact hallowed
  · obtain ⟨v₁, hsince, rfl⟩ := h
    refine ⟨?_, ?_⟩
    · cases finished with
      | true =>
        refine hsince.valid.record_setResult ?_
        rw [hpath, hsince.same _ le_rfl, hin.owner]
      | false => exact hsince.valid.setResult _ _ _
    · refine hsince.same.trans fun _ _ => ?_
      cases finished <;> rfl

end Programs

end Flowmind
