import Mathlib.Data.List.Basic
import Mathlib.Tactic.Common

/-!
# A log that transactions append to

What a transaction appends is seen by the others when it commits, after everything that has been
committed before; until then it is pending.

* `own` — what a transaction has appended and not committed.
* `committed_commit`, `own_commit`, `own_rollback`, `own_add` — everything is said through the
  committed entries and the pending ones of each transaction.
-/

namespace Flowmind.Store

/-- The entries that are committed, and the pending ones with their transactions. -/
structure TxLog (ι τ : Type*) where
  committed : List τ
  pending : List (ι × τ)

namespace TxLog

variable {ι τ : Type*} [DecidableEq ι]

/-- Nothing has been appended. -/
def empty : TxLog ι τ := ⟨[], []⟩

/-- What a transaction has appended. -/
def own (log : TxLog ι τ) (i : ι) : List τ :=
  (log.pending.filter fun entry => decide (entry.1 = i)).map (·.2)

/-- A transaction appends an entry. -/
def add (log : TxLog ι τ) (i : ι) (entry : τ) : TxLog ι τ :=
  { log with pending := log.pending ++ [(i, entry)] }

/-- What a transaction has appended is dropped. -/
def rollback (log : TxLog ι τ) (i : ι) : TxLog ι τ :=
  { log with pending := log.pending.filter fun entry => decide (entry.1 ≠ i) }

/-- What a transaction has appended is committed. -/
def commit (log : TxLog ι τ) (i : ι) : TxLog ι τ :=
  { log.rollback i with committed := log.committed ++ log.own i }

variable (log : TxLog ι τ) (i j : ι) (entry : τ)

@[simp] lemma committed_commit : (log.commit i).committed = log.committed ++ log.own i := rfl

lemma own_add : (log.add i entry).own j = if i = j then log.own j ++ [entry] else log.own j := by
  by_cases hij : i = j <;> simp [own, add, hij]

lemma own_rollback : (log.rollback i).own j = if i = j then [] else log.own j := by
  by_cases hij : i = j
  · subst hij
    simp [own, rollback]
  · have hkeep : ∀ entry : ι × τ, (decide (entry.1 = j) && decide (entry.1 ≠ i)) =
        decide (entry.1 = j) := by
      intro entry
      by_cases hentry : entry.1 = j
      · simp [hentry, Ne.symm hij]
      · simp [hentry]
    simp only [own, rollback, List.filter_filter, hkeep, if_neg hij]

lemma own_commit : (log.commit i).own j = if i = j then [] else log.own j := own_rollback log i j

end TxLog

end Flowmind.Store
