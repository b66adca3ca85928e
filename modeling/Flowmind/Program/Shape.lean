import Flowmind.Program.Prog

/-!
# The shape of a program

Most of a long program is put together from operations that mean nothing to a given protocol, and
from a few calls that do.  `Composed` says what a program is put together from, once and for all;
what a protocol needs to know about the program then follows from what it says of the operations and
of the calls (`Composed.meets`).
-/

namespace Flowmind.Program

universe u v x

variable {Op : Type u} {Ans : Op → Type v} {σ : Type*}

/-- The program consists of operations that are `allowed` and of calls; with answers as in `rely`
its results are as in the postcondition. -/
inductive Composed (rely : (op : Op) → Ans op → Prop) (allowed : Op → Prop)
    (call : (ε α : Type x) → Prog Op Ans ε α → Prop) :
    {ε α : Type x} → (α → Prop) → Prog Op Ans ε α → Prop where
  | ret {ε α : Type x} {post : α → Prop} {a : α} (h : post a) :
      Composed rely allowed call post (.ret a : Prog Op Ans ε α)
  | fail {ε α : Type x} {post : α → Prop} {e : ε} :
      Composed rely allowed call post (.fail e : Prog Op Ans ε α)
  | ask {ε α : Type x} {post : α → Prop} {op : Op} {k : Ans op → Prog Op Ans ε α} (hop : allowed op)
      (hk : ∀ answer, rely op answer → Composed rely allowed call post (k answer)) :
      Composed rely allowed call post (.ask op k)
  | bind {ε α β : Type x} {mid : α → Prop} {post : β → Prop} {p : Prog Op Ans ε α}
      {f : α → Prog Op Ans ε β} (hp : Composed rely allowed call mid p)
      (hf : ∀ a, mid a → Composed rely allowed call post (f a)) :
      Composed rely allowed call post (p.bind f)
  | handle {ε ε' α : Type x} {post : α → Prop} {p : Prog Op Ans ε α} {h : ε → Prog Op Ans ε' α}
      (hp : Composed rely allowed call post p)
      (hh : ∀ e, Composed rely allowed call post (h e)) :
      Composed rely allowed call post (p.handle h)
  | call {ε α : Type x} {p : Prog Op Ans ε α} (h : call ε α p) :
      Composed rely allowed call (fun _ => True) p

namespace Composed

variable {rely : (op : Op) → Ans op → Prop} {allowed allowed' : Op → Prop}
  {call call' : (ε α : Type x) → Prog Op Ans ε α → Prop} {ε α β : Type x} {post : α → Prop}
  {p : Prog Op Ans ε α}

/-- Replace the calls by what they consist of. -/
lemma flatten (hallowed : ∀ op, allowed op → allowed' op)
    (hcall : ∀ {ε α : Type x} {p : Prog Op Ans ε α}, call ε α p →
      Composed rely allowed' call' (fun _ => True) p) (h : Composed rely allowed call post p) :
    Composed rely allowed' call' post p := by
  induction h with
  | ret h => exact .ret h
  | fail => exact .fail
  | ask hop _ ih => exact .ask (hallowed _ hop) ih
  | bind _ _ ihp ihf => exact .bind ihp ihf
  | handle _ _ ihp ihh => exact .handle ihp ihh
  | call h => exact hcall h

/-- Allow more. -/
lemma mono (hallowed : ∀ op, allowed op → allowed' op)
    (hcall : ∀ {ε α : Type x} {p : Prog Op Ans ε α}, call ε α p → call' ε α p)
    (h : Composed rely allowed call post p) : Composed rely allowed' call' post p :=
  h.flatten hallowed fun h => .call (hcall h)

/-- Say less of the result. -/
lemma weaken {post' : α → Prop} (hpost : ∀ a, post a → post' a)
    (h : Composed rely allowed call post p) : Composed rely allowed call post' p := by
  have hret : p.bind Prog.ret = p := by
    clear h
    induction p with
    | ret | fail => rfl
    | ask op k ih => exact congrArg (Prog.ask op) (funext ih)
  rw [← hret]
  exact .bind h fun a ha => .ret (hpost a ha)

/-- Either of two programs. -/
lemma ite {c : Prop} [Decidable c] {q : Prog Op Ans ε α} (hp : Composed rely allowed call post p)
    (hq : Composed rely allowed call post q) :
    Composed rely allowed call post (if c then p else q) := by
  split_ifs
  · exact hp
  · exact hq

/-- Nothing is needed of the result of the first part. -/
lemma andThen {mid : α → Prop} {post : β → Prop} {f : α → Prog Op Ans ε β}
    (hp : Composed rely allowed call mid p) (hf : ∀ a, Composed rely allowed call post (f a)) :
    Composed rely allowed call post (p.bind f) :=
  .bind hp fun a _ => hf a

lemma loop {τ : Type x} {stuck : Prog Op Ans ε α} {body : τ → Prog Op Ans ε (τ ⊕ α)}
    (hstuck : Composed rely allowed call (fun _ => True) stuck)
    (hbody : ∀ t, Composed rely allowed call (fun _ => True) (body t)) (fuel : ℕ) (t : τ) :
    Composed rely allowed call (fun _ => True) (Prog.loop stuck body fuel t) := by
  induction fuel generalizing t with
  | zero => exact hstuck
  | succ fuel ih =>
    refine (hbody t).andThen fun r => ?_
    cases r with
    | inl t' => exact ih t'
    | inr a => exact .ret trivial

lemma each {τ : Type*} {body : τ → Prog Op Ans ε PUnit} {items : List τ}
    (h : ∀ item ∈ items, Composed rely allowed call (fun _ => True) (body item)) :
    Composed rely allowed call (fun _ => True) (Prog.each body items) := by
  induction items with
  | nil => exact .ret trivial
  | cons item items ih =>
    exact (h item (by simp)).andThen fun _ => ih fun item' hmem => h item' (by simp [hmem])

lemma ofExcept (r : Except ε α) :
    Composed rely allowed call (fun _ => True) (Prog.ofExcept r : Prog Op Ans ε α) := by
  cases r with
  | ok a => exact .ret trivial
  | error e => exact .fail

/-- A program keeps to a protocol, and an invariant of its states, if its operations and calls do.
-/
lemma meets {P : Protocol Op Ans σ} (inv : σ → Prop)
    (hrely : ∀ op answer, P.rely op answer → rely op answer) (hask : ∀ s op, inv s → allowed op →
      P.ok s op ∧ ∀ answer, P.rely op answer → inv (P.next s op answer))
    (hcall : ∀ {ε α : Type x} {p : Prog Op Ans ε α}, call ε α p → ∀ s, inv s →
      Meets P (fun s' _ => inv s') (fun s' _ => inv s') p s)
    (h : Composed rely allowed call post p) :
    ∀ s, inv s → Meets P (fun s' a => inv s' ∧ post a) (fun s' _ => inv s') p s := by
  induction h with
  | ret h => exact fun s hs => ⟨hs, h⟩
  | fail => exact fun s hs => hs
  | ask hop _ ih =>
    intro s hs
    obtain ⟨hok, hnext⟩ := hask s _ hs hop
    exact ⟨hok, fun answer hanswer => ih answer (hrely _ _ hanswer) _ (hnext answer hanswer)⟩
  | bind _ _ ihp ihf => exact fun s hs => (ihp s hs).bind fun s' a h => ihf a h.2 s' h.1
  | handle _ _ ihp ihh => exact fun s hs => (ihp s hs).handle fun s' e h => ihh e s' h
  | call h => exact fun s hs => (hcall h s hs).mono (fun _ _ h => ⟨h, trivial⟩) fun _ _ h => h

end Composed

end Flowmind.Program
