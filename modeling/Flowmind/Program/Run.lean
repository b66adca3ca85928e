import Mathlib.Data.List.Basic
import Mathlib.Tactic.Common

/-!
# Runs of a transition system

A transition system is a relation `step : σ → E → σ → Prop` between states, each step with its
event.

* `Run` — a finite run, with the list of its events.
* `Run.invariant` — what every step preserves holds after every run.
* `Run.simulate` — a run of one system is a run of another one, if every step is a step of the other
  or is not visible there.
* `script` — executing a list of actions, each of which is a step; `exists_run` — what it returns is
  a run, so that a run with some property is found by evaluation.
-/

namespace Flowmind.Program

variable {σ τ E F : Type*} {step : σ → E → σ → Prop}

/-- A run from one state to another, with its events in order. -/
inductive Run (step : σ → E → σ → Prop) (start : σ) : List E → σ → Prop where
  | nil : Run step start [] start
  | snoc {events : List E} {s s' : σ} {event : E} (run : Run step start events s)
      (last : step s event s') : Run step start (events ++ [event]) s'

namespace Run

variable {start s : σ} {events : List E}

/-- One run after the other. -/
lemma append {s' : σ} {events' : List E} (run : Run step start events s)
    (run' : Run step s events' s') : Run step start (events ++ events') s' := by
  induction run' with
  | nil => simpa using run
  | snoc _ last ih => simpa using ih.snoc last

lemma cons {s' s'' : σ} {event : E} (first : step s event s') (run : Run step s' events s'') :
    Run step s (event :: events) s'' :=
  (Run.nil.snoc first).append run

/-- An invariant of the state and the events so far. -/
lemma invariant (inv : List E → σ → Prop) (init : inv [] start)
    (keep : ∀ events s event s', Run step start events s → inv events s → step s event s' →
      inv (events ++ [event]) s') (run : Run step start events s) : inv events s := by
  induction run with
  | nil => exact init
  | snoc run last ih => exact keep _ _ _ _ run ih last

variable {step' : σ → E → σ → Prop}

/-- Two systems with the same states: steps of the one are steps of the other. -/
lemma mono (h : ∀ s event s', step s event s' → step' s event s') (run : Run step start events s) :
    Run step' start events s := by
  induction run with
  | nil => exact .nil
  | snoc _ last ih => exact ih.snoc (h _ _ _ last)

/-- Steps of the one system are steps of the other where an invariant holds, for good events. -/
lemma mono_invariant (inv : σ → Prop) (good : E → Prop)
    (h : ∀ s event s', inv s → good event → step s event s' → step' s event s' ∧ inv s')
    (run : Run step start events s) (hstart : inv start) (hgood : ∀ event ∈ events, good event) :
    Run step' start events s ∧ inv s := by
  induction run with
  | nil => exact ⟨.nil, hstart⟩
  | @snoc events s s' event _ last ih =>
    obtain ⟨run', hs⟩ := ih fun event hmem => hgood event (List.mem_append_left _ hmem)
    obtain ⟨last', hs'⟩ := h s event s' hs (hgood event (by simp)) last
    exact ⟨run'.snoc last', hs'⟩

/-- The same where nothing is needed of the state. -/
lemma mono_of_all {good : E → Bool}
    (h : ∀ s event s', step s event s' → good event = true → step' s event s')
    (run : Run step start events s) (hgood : events.all good = true) : Run step' start events s :=
  (run.mono_invariant (fun _ => True) (fun event => good event = true)
    (fun s event s' _ hevent hstep => ⟨h s event s' hstep hevent, trivial⟩) trivial
    (List.all_eq_true.mp hgood)).1

/-- Every step is one of another system, seen through `view`, or leaves its state alone. -/
lemma simulate {step' : τ → F → τ → Prop} {view : σ → τ} {event : E → Option F}
    (h : ∀ s e s', step s e s' →
      (event e).elim (view s' = view s) fun f => step' (view s) f (view s'))
    (run : Run step start events s) : Run step' (view start) (events.filterMap event) (view s) := by
  induction run with
  | nil => exact .nil
  | @snoc events s s' e run last ih =>
    have hlast := h _ _ _ last
    cases hevent : event e with
    | none =>
      rw [hevent, Option.elim_none] at hlast
      simpa [hevent, hlast] using ih
    | some f =>
      rw [hevent] at hlast
      simpa [hevent] using ih.snoc hlast

end Run

/-! ## Scripts -/

section Script

variable {A : Type*}

/-- Execute actions one after the other. -/
def script (act : σ → A → Option (E × σ)) (s : σ) : List A → Option (List E × σ)
  | [] => some ([], s)
  | action :: actions =>
    (act s action).bind fun (event, s') =>
      (script act s' actions).map fun (events, s'') => (event :: events, s'')

/-- Execute an action whose event meets a condition. -/
def actIf (act : σ → A → Option (E × σ)) (guard : σ → E → Prop) [∀ s, DecidablePred (guard s)]
    (s : σ) (action : A) : Option (E × σ) :=
  (act s action).filter fun done => guard s done.1

variable (act : σ → A → Option (E × σ))
  (hact : ∀ s action event s', act s action = some (event, s') → step s event s')
include hact

/-- A script is a run of any system that has the steps of its actions. -/
lemma run_of_script : ∀ {actions : List A} {s s' : σ} {events : List E},
    script act s actions = some (events, s') → Run step s events s'
  | [], _, _, _, hscript => by
    cases hscript
    exact .nil
  | action :: actions, s, s', events, hscript => by
    simp only [script, Option.bind_eq_some_iff, Option.map_eq_some_iff] at hscript
    obtain ⟨⟨event, s₁⟩, hfirst, ⟨rest, s₂⟩, hrest, ⟨⟩⟩ := hscript
    exact .cons (hact _ _ _ _ hfirst) (run_of_script hrest)

/-- A script whose events and last state have a property: there is a run with it. -/
lemma exists_run {actions : List A} {s : σ} {last : List E × σ → Prop} [DecidablePred last]
    (h : (script act s actions).any (fun done => last done) = true) :
    ∃ events s', Run step s events s' ∧ last (events, s') := by
  obtain ⟨⟨events, s'⟩, hscript, hlast⟩ := (Option.any_eq_true _ _).mp h
  exact ⟨events, s', run_of_script act hact hscript, of_decide_eq_true hlast⟩

/-- The same for one action. -/
lemma exists_step {action : A} {s : σ} {last : E × σ → Prop} [DecidablePred last]
    (h : (act s action).any (fun done => last done) = true) :
    ∃ event s', step s event s' ∧ last (event, s') := by
  obtain ⟨⟨event, s'⟩, hfirst, hlast⟩ := (Option.any_eq_true _ _).mp h
  exact ⟨event, s', hact _ _ _ _ hfirst, of_decide_eq_true hlast⟩

end Script

end Flowmind.Program
