import Flowmind.Program.Prog
import Flowmind.Program.Run

/-!
# Programs at work on a shared state

The members of a crew serve requests: each runs a program, one operation after the other, and the
operations of all members come in any order.  A member may crash at any point, and others change the
shared state as well.

* `Setting` — the programs, what an operation does to the shared state, and what others do to it.
* `CrewStep` — one step of the crew; `Crew.act` executes one, and a script of them is a run
  (`Crew.exists_run`).
* `ViewStep` — the same steps, with the programs forgotten: of each member only the state of a
  protocol is left.
* `Guarded.refines` — if every program keeps to the protocol, a run of the crew is a run of its
  views.  An invariant of the crew is proved there (`Guarded.invariant`), where a member may do
  whatever the protocol allows; what is said of each member on its own is kept if nobody else
  interferes with it (`ViewStep.members`).
-/

namespace Flowmind.Program

open Function

universe u v w x

/-- What the members of a crew do: `program` says how a request is served, `perform` what an
operation answers and what it makes of the shared state (an oracle decides what is open), `leave`
what becomes of the state when a member is done or crashes, and `other` what others do. -/
structure Setting (ι R σ : Type*) (Op : Type u) (Ans : Op → Type v) (ε : Type w) (α : Type x)
    (O E : Type*) where
  program : ι → R → Prog Op Ans ε α
  perform : ι → O → σ → (op : Op) → Option (Ans op × σ)
  leave : ι → σ → σ
  other : E → σ → Option σ

/-- The shared state, and what is left of the programs. -/
structure Crew (ι σ : Type*) (Op : Type u) (Ans : Op → Type v) (ε : Type w) (α : Type x) where
  shared : σ
  active : ι → Option (Prog Op Ans ε α)

/-- What happens. -/
inductive CrewEvent (ι R : Type*) {Op : Type u} (Ans : Op → Type v) (ε : Type w) (α : Type x)
    (E : Type*) where
  | start (i : ι) (request : R)
  | perform (i : ι) (op : Op) (answer : Ans op)
  | ret (i : ι) (result : α)
  | fail (i : ι) (error : ε)
  | crash (i : ι)
  | other (event : E)

section Crew

variable {ι R σ O E : Type*} {Op : Type u} {Ans : Op → Type v} {ε : Type w} {α : Type x}
  [DecidableEq ι]

/-- Nobody is at work. -/
def Crew.idle (s : σ) : Crew ι σ Op Ans ε α := ⟨s, fun _ => none⟩

/-- One step of the crew. -/
inductive CrewStep (S : Setting ι R σ Op Ans ε α O E) :
    Crew ι σ Op Ans ε α → CrewEvent ι R Ans ε α E → Crew ι σ Op Ans ε α → Prop where
  | start {c : Crew ι σ Op Ans ε α} {i : ι} {request : R} (hidle : c.active i = none) :
      CrewStep S c (.start i request)
        ⟨c.shared, Function.update c.active i (some (S.program i request))⟩
  | perform {c : Crew ι σ Op Ans ε α} {i : ι} {op : Op} {k : Ans op → Prog Op Ans ε α}
      {answer : Ans op} {s' : σ} (oracle : O) (hactive : c.active i = some (.ask op k))
      (hperform : S.perform i oracle c.shared op = some (answer, s')) :
      CrewStep S c (.perform i op answer) ⟨s', Function.update c.active i (some (k answer))⟩
  | ret {c : Crew ι σ Op Ans ε α} {i : ι} {a : α} (hactive : c.active i = some (.ret a)) :
      CrewStep S c (.ret i a) ⟨S.leave i c.shared, Function.update c.active i none⟩
  | fail {c : Crew ι σ Op Ans ε α} {i : ι} {e : ε} (hactive : c.active i = some (.fail e)) :
      CrewStep S c (.fail i e) ⟨S.leave i c.shared, Function.update c.active i none⟩
  | crash {c : Crew ι σ Op Ans ε α} {i : ι} {p : Prog Op Ans ε α} (hactive : c.active i = some p) :
      CrewStep S c (.crash i) ⟨S.leave i c.shared, Function.update c.active i none⟩
  | other {c : Crew ι σ Op Ans ε α} {event : E} {s' : σ} (h : S.other event c.shared = some s') :
      CrewStep S c (.other event) ⟨s', c.active⟩

/-- A step that is taken only where a condition on the shared state and the event holds. -/
def CrewStep.Guarded (S : Setting ι R σ Op Ans ε α O E) (guard : σ → CrewEvent ι R Ans ε α E → Prop)
    (c : Crew ι σ Op Ans ε α) (event : CrewEvent ι R Ans ε α E) (c' : Crew ι σ Op Ans ε α) : Prop :=
  CrewStep S c event c' ∧ guard c.shared event

variable {S : Setting ι R σ Op Ans ε α O E} {c c' : Crew ι σ Op Ans ε α}
  {events : List (CrewEvent ι R Ans ε α E)}

/-- Without a condition. -/
lemma CrewStep.guarded (hrun : Run (CrewStep S) c events c') :
    Run (CrewStep.Guarded S fun _ _ => True) c events c' :=
  hrun.mono fun _ _ _ hstep => ⟨hstep, trivial⟩

variable {guard : σ → CrewEvent ι R Ans ε α E → Prop}

/-- What was answered in a run was answered by an operation. -/
lemma CrewStep.Guarded.performed (hrun : Run (CrewStep.Guarded S guard) c events c') {i : ι}
    {op : Op} {answer : Ans op} (hmem : .perform i op answer ∈ events) :
    ∃ oracle s s', S.perform i oracle s op = some (answer, s') := by
  induction hrun with
  | nil => cases hmem
  | snoc _ last ih =>
    rcases List.mem_append.mp hmem with hmem | hmem
    · exact ih hmem
    · obtain rfl := List.mem_singleton.mp hmem
      cases last.1 with
      | perform oracle _ hperform => exact ⟨oracle, _, _, hperform⟩

/-! ## Views -/

/-- The shared state, and what is known of each member. -/
structure Views (ι σ τ : Type*) where
  shared : σ
  view : ι → Option τ

/-- Nobody is at work. -/
def Views.idle {τ : Type*} (s : σ) : Views ι σ τ := ⟨s, fun _ => none⟩

/-- One step, as far as the protocol tells: a member may do whatever it allows. -/
inductive ViewStep {τ : Type*} (S : Setting ι R σ Op Ans ε α O E) (P : Protocol Op Ans τ)
    (init : ι → R → τ) (post : τ → α → Prop) (exc : τ → ε → Prop) :
    Views ι σ τ → CrewEvent ι R Ans ε α E → Views ι σ τ → Prop where
  | start {c : Views ι σ τ} {i : ι} {request : R} (hidle : c.view i = none) :
      ViewStep S P init post exc c (.start i request)
        ⟨c.shared, Function.update c.view i (some (init i request))⟩
  | perform {c : Views ι σ τ} {i : ι} {t : τ} {op : Op} {answer : Ans op} {s' : σ} (oracle : O)
      (hview : c.view i = some t) (hok : P.ok t op) (hrely : P.rely op answer)
      (hperform : S.perform i oracle c.shared op = some (answer, s')) :
      ViewStep S P init post exc c (.perform i op answer)
        ⟨s', Function.update c.view i (some (P.next t op answer))⟩
  | ret {c : Views ι σ τ} {i : ι} {t : τ} {a : α} (hview : c.view i = some t) (hpost : post t a) :
      ViewStep S P init post exc c (.ret i a) ⟨S.leave i c.shared, Function.update c.view i none⟩
  | fail {c : Views ι σ τ} {i : ι} {t : τ} {e : ε} (hview : c.view i = some t) (hexc : exc t e) :
      ViewStep S P init post exc c (.fail i e) ⟨S.leave i c.shared, Function.update c.view i none⟩
  | crash {c : Views ι σ τ} {i : ι} {t : τ} (hview : c.view i = some t) :
      ViewStep S P init post exc c (.crash i) ⟨S.leave i c.shared, Function.update c.view i none⟩
  | other {c : Views ι σ τ} {event : E} {s' : σ} (h : S.other event c.shared = some s') :
      ViewStep S P init post exc c (.other event) ⟨s', c.view⟩

section Refinement

variable {τ : Type*} {S : Setting ι R σ Op Ans ε α O E} {P : Protocol Op Ans τ} {init : ι → R → τ}
  {post : τ → α → Prop} {exc : τ → ε → Prop}

/-- A member performs an operation that the protocol allows. -/
structure ViewStep.Performs (S : Setting ι R σ Op Ans ε α O E) (P : Protocol Op Ans τ)
    (w : Views ι σ τ) (i : ι) (op : Op) (answer : Ans op) (s' : σ) (t : τ) : Prop where
  view : w.view i = some t
  ok : P.ok t op
  rely : P.rely op answer
  perform : ∃ oracle, S.perform i oracle w.shared op = some (answer, s')

variable {event : CrewEvent ι R Ans ε α E}

variable {w' : Views ι σ τ}

/-- Where the view of a member after a step comes from. -/
lemma ViewStep.view_cases {w : Views ι σ τ} (hstep : ViewStep S P init post exc w event w')
    {j : ι} {t' : τ} (h : w'.view j = some t') :
    (w.view j = some t' ∧ ∀ op answer, event ≠ .perform j op answer) ∨
      (∃ request, event = .start j request ∧ t' = init j request) ∨
      ∃ op answer t, event = .perform j op answer ∧ Performs S P w j op answer w'.shared t ∧
        t' = P.next t op answer := by
  cases hstep with
  | @start i request =>
    by_cases hji : j = i
    · subst hji
      simp only [update_self, Option.some.injEq] at h
      exact .inr (.inl ⟨request, rfl, h.symm⟩)
    · exact .inl ⟨by simpa [update_of_ne hji] using h, by rintro _ _ ⟨⟩⟩
  | @perform i t op answer s' oracle hview hok hrely hperform =>
    by_cases hji : j = i
    · subst hji
      simp only [update_self, Option.some.injEq] at h
      exact .inr (.inr ⟨op, answer, t, rfl, ⟨hview, hok, hrely, oracle, hperform⟩, h.symm⟩)
    · refine .inl ⟨by simpa [update_of_ne hji] using h, ?_⟩
      rintro _ _ ⟨⟩
      exact hji rfl
  | @ret i _ _ | @fail i _ _ | @crash i _ =>
    by_cases hji : j = i
    · subst hji
      simp at h
    · exact .inl ⟨by simpa [update_of_ne hji] using h, by rintro _ _ ⟨⟩⟩
  | other => exact .inl ⟨h, by rintro _ _ ⟨⟩⟩

/-- **What is said of each member on its own**: it is kept if the steps of the member keep it, and
neither the steps of another member nor those of others interfere with it. -/
lemma ViewStep.members {Q : σ → ι → Option τ → Prop} {w : Views ι σ τ}
    (hstep : ViewStep S P init post exc w event w') (h : ∀ i, Q w.shared i (w.view i))
    (hstart : ∀ i request, Q w.shared i none → Q w.shared i (some (init i request)))
    (hperform : ∀ i op answer s' t, event = .perform i op answer →
      Performs S P w i op answer s' t → Q w.shared i (some t) →
      Q s' i (some (P.next t op answer))) (hleave : ∀ i, Q (S.leave i w.shared) i none)
    (hkeep : ∀ i j op answer s' t v, j ≠ i → Performs S P w i op answer s' t →
      Q w.shared j v → Q s' j v)
    (hkeepLeave : ∀ i j v, j ≠ i → Q w.shared j v → Q (S.leave i w.shared) j v)
    (hother : ∀ change s' j v, S.other change w.shared = some s' → Q w.shared j v → Q s' j v)
    (j : ι) : Q w'.shared j (w'.view j) := by
  cases hstep with
  | @start i request hidle =>
    by_cases hji : j = i
    · subst hji
      simp only [update_self]
      exact hstart j request (hidle ▸ h j)
    · simp only [update_of_ne hji]
      exact h j
  | @perform i t op answer s' oracle hview hok hrely hanswer =>
    by_cases hji : j = i
    · subst hji
      simp only [update_self]
      exact hperform j op answer s' t rfl ⟨hview, hok, hrely, oracle, hanswer⟩ (hview ▸ h j)
    · simp only [update_of_ne hji]
      exact hkeep i j op answer s' t _ hji ⟨hview, hok, hrely, oracle, hanswer⟩ (h j)
  | @ret i _ _ | @fail i _ _ | @crash i _ =>
    by_cases hji : j = i
    · subst hji
      simp only [update_self]
      exact hleave j
    · simp only [update_of_ne hji]
      exact hkeepLeave i j _ hji (h j)
  | other hchange => exact hother _ _ j _ hchange (h j)

/-- A crew and its views: what is left of the program of a member keeps to the protocol. -/
structure Crew.Seen (P : Protocol Op Ans τ) (post : τ → α → Prop) (exc : τ → ε → Prop)
    (c : Crew ι σ Op Ans ε α) (w : Views ι σ τ) : Prop where
  shared : w.shared = c.shared
  idle : ∀ i, c.active i = none → w.view i = none
  active : ∀ i program, c.active i = some program →
    ∃ t, w.view i = some t ∧ Meets P post exc program t

/-- The crew goes on with a member whose view is known. -/
lemma Crew.Seen.update {w : Views ι σ τ} (h : c.Seen P post exc w) (s : σ) (i : ι)
    {program : Prog Op Ans ε α} {t : τ} (hmeets : Meets P post exc program t) :
    Crew.Seen P post exc ⟨s, Function.update c.active i (some program)⟩
      ⟨s, Function.update w.view i (some t)⟩ where
  shared := rfl
  idle j hj := by
    by_cases hji : j = i
    · subst hji
      simp at hj
    · simp only [update_of_ne hji] at hj ⊢
      exact h.idle j hj
  active j program' hj := by
    by_cases hji : j = i
    · subst hji
      simp only [update_self] at hj ⊢
      cases hj
      exact ⟨t, rfl, hmeets⟩
    · simp only [update_of_ne hji] at hj ⊢
      exact h.active j program' hj

/-- A member is done. -/
lemma Crew.Seen.remove {w : Views ι σ τ} (h : c.Seen P post exc w) (s : σ) (i : ι) :
    Crew.Seen P post exc ⟨s, Function.update c.active i none⟩
      ⟨s, Function.update w.view i none⟩ where
  shared := rfl
  idle j hj := by
    by_cases hji : j = i
    · subst hji
      exact update_self ..
    · simp only [update_of_ne hji] at hj ⊢
      exact h.idle j hj
  active j program hj := by
    by_cases hji : j = i
    · subst hji
      simp at hj
    · simp only [update_of_ne hji] at hj ⊢
      exact h.active j program hj

/-- A step of the crew is a step of its views. -/
lemma CrewStep.viewStep
    (hprogram : ∀ i request, Meets P post exc (S.program i request) (init i request))
    (hstep : CrewStep S c event c')
    (hrely : ∀ i op answer, event = .perform i op answer → P.rely op answer) {w : Views ι σ τ}
    (h : c.Seen P post exc w) :
    ∃ w', ViewStep S P init post exc w event w' ∧ c'.Seen P post exc w' := by
  obtain ⟨shared, view⟩ := w
  obtain rfl : shared = c.shared := h.shared
  cases hstep with
  | start hidle => exact ⟨_, .start (h.idle _ hidle), h.update _ _ (hprogram _ _)⟩
  | @perform i op k answer s' oracle hactive hperform =>
    obtain ⟨t, ht, hok, hnext⟩ := h.active i _ hactive
    have hanswer := hrely i op answer rfl
    exact ⟨_, .perform oracle ht hok hanswer hperform, h.update _ _ (hnext answer hanswer)⟩
  | @ret i a hactive =>
    obtain ⟨t, ht, hpost⟩ := h.active i _ hactive
    exact ⟨_, .ret ht hpost, h.remove _ _⟩
  | @fail i e hactive =>
    obtain ⟨t, ht, hexc⟩ := h.active i _ hactive
    exact ⟨_, .fail ht hexc, h.remove _ _⟩
  | @crash i p hactive =>
    obtain ⟨t, ht, -⟩ := h.active i _ hactive
    exact ⟨_, .crash ht, h.remove _ _⟩
  | other hother => exact ⟨_, .other hother, ⟨rfl, h.idle, h.active⟩⟩

variable {s : σ} {w : Views ι σ τ}

omit [DecidableEq ι] in
/-- Nobody is at work. -/
lemma Crew.seen_idle : (Crew.idle s : Crew ι σ Op Ans ε α).Seen P post exc (.idle s) :=
  ⟨rfl, fun _ _ => rfl, nofun⟩

/-- A member that is about to perform an operation is allowed to. -/
lemma CrewStep.performs (hseen : c.Seen P post exc w) {i : ι} {op : Op} {answer : Ans op}
    (hstep : CrewStep S c (.perform i op answer) c') :
    ∃ t oracle, w.view i = some t ∧ P.ok t op ∧
      S.perform i oracle w.shared op = some (answer, c'.shared) := by
  cases hstep with
  | perform oracle hactive hperform =>
    obtain ⟨t, ht, hok, -⟩ := hseen.active i _ hactive
    exact ⟨t, oracle, ht, hok, hseen.shared ▸ hperform⟩

/-- **A run of a crew whose programs keep to a protocol is a run of its views.** -/
theorem CrewStep.Guarded.refines
    (hprogram : ∀ i request, Meets P post exc (S.program i request) (init i request))
    (hseen : c.Seen P post exc w) (hrun : Run (CrewStep.Guarded S guard) c events c')
    (hrely : ∀ i op answer, .perform i op answer ∈ events → P.rely op answer) :
    ∃ w', Run (fun w event w' => ViewStep S P init post exc w event w' ∧ guard w.shared event)
      w events w' ∧ c'.Seen P post exc w' := by
  induction hrun with
  | nil => exact ⟨w, .nil, hseen⟩
  | @snoc events c c' event _ last ih =>
    obtain ⟨w, hw, hseen⟩ := ih fun i op answer hmem =>
      hrely i op answer (List.mem_append_left _ hmem)
    obtain ⟨w', hstep, hseen'⟩ := last.1.viewStep hprogram
      (fun i op answer heq => hrely i op answer (by simp [heq])) hseen
    exact ⟨w', hw.snoc ⟨hstep, hseen.shared ▸ last.2⟩, hseen'⟩

/-- What every step of the views preserves holds of what a crew has made of the shared state. -/
theorem CrewStep.Guarded.invariant
    (hprogram : ∀ i request, Meets P post exc (S.program i request) (init i request))
    (inv : List (CrewEvent ι R Ans ε α E) → Views ι σ τ → Prop) (hinit : inv [] w)
    (hkeep : ∀ events w event w', inv events w → ViewStep S P init post exc w event w' →
      guard w.shared event → inv (events ++ [event]) w')
    (hseen : c.Seen P post exc w) (hrun : Run (CrewStep.Guarded S guard) c events c')
    (hrely : ∀ i op answer, .perform i op answer ∈ events → P.rely op answer) :
    ∃ w', inv events w' ∧ c'.Seen P post exc w' := by
  obtain ⟨w', hw', hseen'⟩ := CrewStep.Guarded.refines hprogram hseen hrun hrely
  exact ⟨w', hw'.invariant inv hinit fun _ _ _ _ _ hinv hstep => hkeep _ _ _ _ hinv hstep.1 hstep.2,
    hseen'⟩

end Refinement

/-! ## Scripts -/

/-- An action of a script. -/
inductive CrewAction (ι R O E : Type*) where
  | start (i : ι) (request : R)
  /-- The next operation of a member, or its end. -/
  | go (i : ι) (oracle : O)
  | crash (i : ι)
  | other (event : E)

/-- The next operations of a member, all with one oracle. -/
def CrewAction.goes [Inhabited O] (i : ι) (count : ℕ) (oracle : O := default) :
    List (CrewAction ι R O E) :=
  List.replicate count (.go i oracle)

/-- Execute an action. -/
def Crew.act (S : Setting ι R σ Op Ans ε α O E) (c : Crew ι σ Op Ans ε α) :
    CrewAction ι R O E → Option (CrewEvent ι R Ans ε α E × Crew ι σ Op Ans ε α)
  | .start i request =>
    match c.active i with
    | none => some (.start i request,
        ⟨c.shared, Function.update c.active i (some (S.program i request))⟩)
    | some _ => none
  | .go i oracle =>
    match c.active i with
    | none => none
    | some (.ret a) => some (.ret i a, ⟨S.leave i c.shared, Function.update c.active i none⟩)
    | some (.fail e) => some (.fail i e, ⟨S.leave i c.shared, Function.update c.active i none⟩)
    | some (.ask op k) =>
      (S.perform i oracle c.shared op).map fun (answer, s') =>
        (.perform i op answer, ⟨s', Function.update c.active i (some (k answer))⟩)
  | .crash i =>
    match c.active i with
    | none => none
    | some _ => some (.crash i, ⟨S.leave i c.shared, Function.update c.active i none⟩)
  | .other event => (S.other event c.shared).map fun s' => (.other event, ⟨s', c.active⟩)

variable {action : CrewAction ι R O E}

lemma Crew.step_of_act {event : CrewEvent ι R Ans ε α E} (h : c.act S action = some (event, c')) :
    CrewStep S c event c' := by
  cases action with
  | start i request =>
    simp only [act] at h
    split at h
    case h_1 hidle =>
      cases h
      exact .start hidle
    case h_2 => cases h
  | go i oracle =>
    simp only [act] at h
    split at h
    case h_1 => cases h
    case h_2 a hactive =>
      cases h
      exact .ret hactive
    case h_3 e hactive =>
      cases h
      exact .fail hactive
    case h_4 op k hactive =>
      obtain ⟨⟨answer, s'⟩, hperform, ⟨⟩⟩ := Option.map_eq_some_iff.mp h
      exact .perform oracle hactive hperform
  | crash i =>
    simp only [act] at h
    split at h
    case h_1 => cases h
    case h_2 p hactive =>
      cases h
      exact .crash hactive
  | other event =>
    obtain ⟨s', hother, ⟨⟩⟩ := Option.map_eq_some_iff.mp h
    exact .other hother

/-- Execute an action whose event meets a condition. -/
abbrev Crew.actIf (S : Setting ι R σ Op Ans ε α O E) (guard : σ → CrewEvent ι R Ans ε α E → Prop)
    [∀ s, DecidablePred (guard s)] :
    Crew ι σ Op Ans ε α → CrewAction ι R O E →
      Option (CrewEvent ι R Ans ε α E × Crew ι σ Op Ans ε α) :=
  Program.actIf (Crew.act S) fun c => guard c.shared

variable {actions : List (CrewAction ι R O E)}
  {last : List (CrewEvent ι R Ans ε α E) × Crew ι σ Op Ans ε α → Prop}

/-- A script whose events and last state have a property: there is a run with it. -/
lemma Crew.exists_run [∀ s, DecidablePred (guard s)] [DecidablePred last]
    (h : (script (Crew.actIf S guard) c actions).any (fun done => last done) = true) :
    ∃ events c', Run (CrewStep.Guarded S guard) c events c' ∧ last (events, c') := by
  refine Program.exists_run (Crew.actIf S guard) (fun c action event c' hact => ?_) h
  obtain ⟨hact, hguard⟩ := Option.filter_eq_some_iff.mp hact
  exact ⟨step_of_act hact, of_decide_eq_true hguard⟩

/-- The same without a condition. -/
lemma Crew.exists_free_run [DecidablePred last]
    (h : (script (Crew.act S) c actions).any (fun done => last done) = true) :
    ∃ events c', Run (CrewStep S) c events c' ∧ last (events, c') :=
  Program.exists_run (Crew.act S) (fun _ _ _ _ => step_of_act) h

/-- One more step. -/
lemma Crew.exists_step {last : CrewEvent ι R Ans ε α E × Crew ι σ Op Ans ε α → Prop}
    [DecidablePred last] (h : (c.act S action).any (fun done => last done) = true) :
    ∃ event c', CrewStep S c event c' ∧ last (event, c') :=
  Program.exists_step (Crew.act S) (fun _ _ _ _ => step_of_act) h

end Crew

end Flowmind.Program
