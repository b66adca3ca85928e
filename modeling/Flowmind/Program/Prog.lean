import Mathlib.Logic.Basic
import Mathlib.Tactic.Common

/-!
# Programs that interact with their surroundings

A program of this file computes in steps: it asks for an operation to be performed, gets an answer
and goes on, until it returns or fails.  What an operation does is not part of the program, so the
same program can be run against a data base that others use at the same time.

* `Prog` — the programs, a monad with failures and their handlers (`Prog.handle`).
* `Prog.loop` — iteration with fuel.
* `Protocol` — what a program may ask for, depending on what has happened before.
* `Meets` — the program keeps to the protocol, whatever the answers; with one rule per construct.
* `Reaches` — what is left of a program after some operations; it still keeps to the protocol.
* `Prog.follow` — a program on its own, against operations that are functions.
-/

namespace Flowmind.Program

universe u v w x y

/-- A program that performs operations `Op`, each with its type of answers. -/
inductive Prog (Op : Type u) (Ans : Op → Type v) (ε : Type w) (α : Type x) :
    Type (max u v w x) where
  /-- Return. -/
  | ret (a : α)
  /-- Fail, as a thrown error that nobody has caught yet. -/
  | fail (e : ε)
  /-- Ask for an operation and go on with its answer. -/
  | ask (op : Op) (k : Ans op → Prog Op Ans ε α)

namespace Prog

variable {Op : Type u} {Ans : Op → Type v} {ε ε' : Type w} {α β : Type x}

/-- Go on with the result. -/
def bind : Prog Op Ans ε α → (α → Prog Op Ans ε β) → Prog Op Ans ε β
  | ret a, f => f a
  | fail e, _ => fail e
  | ask op k, f => ask op fun answer => bind (k answer) f

instance : Monad (Prog Op Ans ε) where
  pure := ret
  bind := bind

/-- Handle a failure. -/
def handle : Prog Op Ans ε α → (ε → Prog Op Ans ε' α) → Prog Op Ans ε' α
  | ret a, _ => ret a
  | fail e, h => h e
  | ask op k, h => ask op fun answer => handle (k answer) h

/-- Ask for one operation. -/
def perform (op : Op) : Prog Op Ans ε (Ans op) := ask op ret

/-- Iterate `body` from a state until it gives a result; `stuck` is what is left without fuel. -/
def loop {σ : Type x} (stuck : Prog Op Ans ε α) (body : σ → Prog Op Ans ε (σ ⊕ α)) :
    ℕ → σ → Prog Op Ans ε α
  | 0, _ => stuck
  | fuel + 1, s => bind (body s) fun
      | .inl s' => loop stuck body fuel s'
      | .inr a => ret a

/-- Run a program for each item of a list. -/
def each {τ : Type y} (body : τ → Prog Op Ans ε PUnit) : List τ → Prog Op Ans ε PUnit
  | [] => ret ⟨⟩
  | item :: items => bind (body item) fun _ => each body items

/-- The answer of an operation that may be refused. -/
def ofExcept : Except ε α → Prog Op Ans ε α
  | .ok a => ret a
  | .error e => fail e

@[simp] lemma bind_eq (p : Prog Op Ans ε α) (f : α → Prog Op Ans ε β) : (p >>= f) = bind p f := rfl

@[simp] lemma pure_eq (a : α) : (pure a : Prog Op Ans ε α) = ret a := rfl

end Prog

/-! ## Protocols -/

/-- What a program may ask for in a state, what it may assume of the answer, and the state after. -/
structure Protocol (Op : Type u) (Ans : Op → Type v) (σ : Type*) where
  /-- The operations that may be asked for. -/
  ok : σ → Op → Prop
  /-- What may be assumed of the answer. -/
  rely : (op : Op) → Ans op → Prop
  /-- The state after the answer. -/
  next : σ → (op : Op) → Ans op → σ

namespace Protocol

variable {Op : Type u} {Ans : Op → Type v} {σ : Type*}

/-- The state after a list of operations with their answers. -/
def after (P : Protocol Op Ans σ) (init : σ) (log : List (Sigma Ans)) : σ :=
  log.foldl (fun s answered => P.next s answered.1 answered.2) init

@[simp] lemma after_nil (P : Protocol Op Ans σ) (init : σ) : P.after init [] = init := rfl

@[simp] lemma after_snoc (P : Protocol Op Ans σ) (init : σ) (log : List (Sigma Ans)) (op : Op)
    (answer : Ans op) :
    P.after init (log ++ [⟨op, answer⟩]) = P.next (P.after init log) op answer := by
  simp [after]

/-- The protocol whose state is all that has been performed. -/
def logging (ok : List (Sigma Ans) → Op → Prop) : Protocol Op Ans (List (Sigma Ans)) where
  ok := ok
  rely _ _ := True
  next log op answer := log ++ [⟨op, answer⟩]

@[simp] lemma after_logging (ok : List (Sigma Ans) → Op → Prop) (init log : List (Sigma Ans)) :
    (logging ok).after init log = init ++ log := by
  induction log generalizing init with
  | nil => simp
  | cons answered log ih =>
    change (logging ok).after (init ++ [answered]) log = _
    rw [ih, List.append_assoc, List.singleton_append]

end Protocol

section Meets

variable {Op : Type u} {Ans : Op → Type v} {ε ε' : Type w} {α β : Type x} {σ : Type*}

/-- From a state on the program asks only for what the protocol allows; it ends in a state and with
a result as in `post`, or in a state and with an error as in `exc`. -/
def Meets (P : Protocol Op Ans σ) (post : σ → α → Prop) (exc : σ → ε → Prop) :
    Prog Op Ans ε α → σ → Prop
  | .ret a, s => post s a
  | .fail e, s => exc s e
  | .ask op k, s => P.ok s op ∧ ∀ answer, P.rely op answer →
      Meets P post exc (k answer) (P.next s op answer)

variable {P : Protocol Op Ans σ} {post : σ → α → Prop} {exc : σ → ε → Prop} {s : σ}

@[simp] lemma meets_ret {a : α} : Meets P post exc (.ret a) s ↔ post s a := Iff.rfl

variable {op : Op}

/-- Weaken what holds at the end. -/
lemma Meets.mono {post' : σ → α → Prop} {exc' : σ → ε → Prop}
    (hpost : ∀ s a, post s a → post' s a) (hexc : ∀ s e, exc s e → exc' s e) :
    ∀ {p : Prog Op Ans ε α} {s : σ}, Meets P post exc p s → Meets P post' exc' p s
  | .ret _, _, h => hpost _ _ h
  | .fail _, _, h => hexc _ _ h
  | .ask _ _, _, h => ⟨h.1, fun answer hans => (h.2 answer hans).mono hpost hexc⟩

/-- First one program, then the next. -/
lemma Meets.bind {mid : σ → α → Prop} {post : σ → β → Prop} {f : α → Prog Op Ans ε β}
    (hf : ∀ s a, mid s a → Meets P post exc (f a) s) :
    ∀ {p : Prog Op Ans ε α} {s : σ}, Meets P mid exc p s → Meets P post exc (p.bind f) s
  | .ret _, _, h => hf _ _ h
  | .fail _, _, h => h
  | .ask _ _, _, h => ⟨h.1, fun answer hans => (h.2 answer hans).bind hf⟩

/-- A program and the handler of its failures. -/
lemma Meets.handle {exc' : σ → ε' → Prop} {h : ε → Prog Op Ans ε' α}
    (hh : ∀ s e, exc s e → Meets P post exc' (h e) s) :
    ∀ {p : Prog Op Ans ε α} {s : σ}, Meets P post exc p s → Meets P post exc' (p.handle h) s
  | .ret _, _, hp => hp
  | .fail _, _, hp => hh _ _ hp
  | .ask _ _, _, hp => ⟨hp.1, fun answer hans => (hp.2 answer hans).handle hh⟩

/-- Either of two programs. -/
lemma Meets.ite {c : Prop} [Decidable c] {p q : Prog Op Ans ε α} (hp : Meets P post exc p s)
    (hq : Meets P post exc q s) : Meets P post exc (if c then p else q) s := by
  split_ifs
  · exact hp
  · exact hq

/-- One operation. -/
lemma Meets.perform {post : σ → Ans op → Prop} (hok : P.ok s op)
    (hpost : ∀ answer, P.rely op answer → post (P.next s op answer) answer) :
    Meets P post exc (.perform op) s :=
  ⟨hok, hpost⟩

/-- One operation, and what comes after it. -/
lemma Meets.step {Ans : Op → Type x} {P : Protocol Op Ans σ} {f : Ans op → Prog Op Ans ε β}
    {post : σ → β → Prop} (hok : P.ok s op)
    (hf : ∀ answer, P.rely op answer → Meets P post exc (f answer) (P.next s op answer)) :
    Meets P post exc ((Prog.perform op).bind f) s :=
  ⟨hok, hf⟩

/-- A loop keeps an invariant on the state of the protocol and its own. -/
lemma Meets.loop {τ : Type x} {stuck : Prog Op Ans ε α} {body : τ → Prog Op Ans ε (τ ⊕ α)}
    (inv : ℕ → σ → τ → Prop) (hstuck : ∀ s t, inv 0 s t → Meets P post exc stuck s)
    (hbody : ∀ fuel s t, inv (fuel + 1) s t → Meets P
      (fun s' r => match r with
        | .inl t' => inv fuel s' t'
        | .inr a => post s' a) exc (body t) s) :
    ∀ (fuel : ℕ) (s : σ) (t : τ), inv fuel s t → Meets P post exc (Prog.loop stuck body fuel t) s
  | 0, s, t, h => hstuck s t h
  | fuel + 1, s, t, h => by
    refine Meets.bind (fun s' r hr => ?_) (hbody fuel s t h)
    cases r with
    | inl t' => exact Meets.loop inv hstuck hbody fuel s' t' hr
    | inr a => exact hr

/-- A program run for each item of a list keeps an invariant on the items that are left. -/
lemma Meets.each {τ : Type y} {body : τ → Prog Op Ans ε PUnit} (inv : List τ → σ → Prop)
    (hbody : ∀ item items s, inv (item :: items) s →
      Meets P (fun s' _ => inv items s') exc (body item) s) :
    ∀ (items : List τ) (s : σ), inv items s →
      Meets P (fun s' _ => inv [] s') exc (Prog.each body items) s
  | [], _, h => h
  | item :: items, s, h =>
    (hbody item items s h).bind fun s' _ hs' => Meets.each inv hbody items s' hs'

/-- What may be refused. -/
lemma Meets.ofExcept {r : Except ε α} (hok : ∀ a, r = .ok a → post s a)
    (herror : ∀ e, r = .error e → exc s e) : Meets P post exc (Prog.ofExcept r) s := by
  cases r with
  | ok a => exact hok a rfl
  | error e => exact herror e rfl

/-- A program in a state from which on everything is allowed. -/
lemma Meets.free (inv : σ → Prop) (hok : ∀ s op, inv s → P.ok s op)
    (hnext : ∀ s op answer, inv s → inv (P.next s op answer)) :
    ∀ {p : Prog Op Ans ε α} {s : σ}, inv s → Meets P (fun s' _ => inv s') (fun s' _ => inv s') p s
  | .ret _, _, hs => hs
  | .fail _, _, hs => hs
  | .ask _ _, _, hs => ⟨hok _ _ hs, fun answer _ => Meets.free inv hok hnext (hnext _ _ answer hs)⟩

/-! ## A program in the middle -/

/-- What is left of a program after some operations. -/
inductive Reaches (p : Prog Op Ans ε α) : List (Sigma Ans) → Prog Op Ans ε α → Prop where
  | nil : Reaches p [] p
  | snoc {log : List (Sigma Ans)} {op : Op} {k : Ans op → Prog Op Ans ε α}
      (before : Reaches p log (.ask op k)) (answer : Ans op) :
      Reaches p (log ++ [⟨op, answer⟩]) (k answer)

variable {log : List (Sigma Ans)} {q : Prog Op Ans ε α}

/-- The first operation comes first. -/
lemma Reaches.cons {k : Ans op → Prog Op Ans ε α} {answer : Ans op} (h : Reaches (k answer) log q) :
    Reaches (.ask op k) (⟨op, answer⟩ :: log) q := by
  induction h with
  | nil => exact .snoc .nil answer
  | snoc _ last ih => exact .snoc ih last

variable {p : Prog Op Ans ε α}

section

variable (h : Meets P post exc p s) (hreach : Reaches p log q)
  (hrely : ∀ answered ∈ log, P.rely answered.1 answered.2)
include h hreach hrely

/-- What is left of a program that keeps to a protocol keeps to it as well. -/
lemma Meets.reaches : Meets P post exc q (P.after s log) := by
  induction hreach with
  | nil => exact h
  | @snoc log op k _ answer ih =>
    have hlog : ∀ answered ∈ log, P.rely answered.1 answered.2 := fun answered hmem =>
      hrely answered (List.mem_append_left _ hmem)
    have hlast : P.rely op answer := hrely ⟨op, answer⟩ (by simp)
    rw [Protocol.after_snoc]
    exact (ih hlog).2 answer hlast

/-- Every operation it has performed was allowed. -/
lemma Meets.ok_of_reaches {answered : Sigma Ans} (hmem : answered ∈ log) : ∃ s', P.ok s' answered.1 := by
  induction hreach with
  | nil => cases hmem
  | snoc before last ih =>
    have hlog := fun answered hmem => hrely answered (List.mem_append_left _ hmem)
    rcases List.mem_append.mp hmem with hmem | hmem
    · exact ih hlog hmem
    · obtain rfl := List.mem_singleton.mp hmem
      exact ⟨_, (h.reaches before hlog).1⟩

end

end Meets

/-! ## A program on its own -/

namespace Prog

variable {Op : Type u} {Ans : Op → Type v} {ε : Type w} {α : Type x} {σ : Type y}

/-- Run a program on its own, for some operations: what it did and what is left. -/
def follow (step : σ → (op : Op) → Option (Ans op × σ)) :
    ℕ → σ → Prog Op Ans ε α → List (Sigma Ans) × Prog Op Ans ε α
  | n + 1, s, .ask op k =>
    match step s op with
    | none => ([], .ask op k)
    | some (answer, s') =>
      let (log, left) := follow step n s' (k answer)
      (⟨op, answer⟩ :: log, left)
  | _, _, p => ([], p)

/-- The program has returned with a result of some kind. -/
def returns (kind : α → Bool) : Prog Op Ans ε α → Bool
  | .ret a => kind a
  | _ => false

lemma eq_ret_of_returns {kind : α → Bool} {p : Prog Op Ans ε α} (h : p.returns kind = true) :
    ∃ a, p = .ret a ∧ kind a = true := by
  cases p with
  | ret a => exact ⟨a, rfl, h⟩
  | fail | ask => cases h

lemma reaches_follow (step : σ → (op : Op) → Option (Ans op × σ)) (n : ℕ) (s : σ)
    (p : Prog Op Ans ε α) : Reaches p (p.follow step n s).1 (p.follow step n s).2 := by
  fun_induction follow step n s p with
  | case1 => exact .nil
  | case2 n s op k answer s' hstep log left hrest ih =>
    rw [hrest] at ih
    exact ih.cons
  | case3 => exact .nil

lemma forall_mem_follow {step : σ → (op : Op) → Option (Ans op × σ)} {good : Sigma Ans → Prop}
    (hgood : ∀ s op answer s', step s op = some (answer, s') → good ⟨op, answer⟩) (n : ℕ) (s : σ)
    (p : Prog Op Ans ε α) : ∀ answered ∈ (p.follow step n s).1, good answered := by
  fun_induction follow step n s p with
  | case1 => simp
  | case2 n s op k answer s' hstep log left hrest ih =>
    rw [hrest] at ih
    intro answered hmem
    rcases List.mem_cons.mp hmem with rfl | hmem
    · exact hgood s op answer s' hstep
    · exact ih answered hmem
  | case3 => simp

end Prog

end Flowmind.Program
