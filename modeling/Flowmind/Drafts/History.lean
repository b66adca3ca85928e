import Mathlib.Data.List.Basic
import Mathlib.Data.List.Induction
import Mathlib.Logic.Function.Iterate

/-!
# Undo and redo

The editor keeps the drafts before and after the present one, each up to a limit.

* `undo_redo_inverse` — in every history that can be reached, both together are within the limit,
  undo and redo take each other back, and as many undos as there were recorded pushes take these
  back.
-/

namespace Flowmind.Drafts

variable {α : Type}

/-- Drafts are objects: those of `α` are told apart by their identity. -/
structure DraftHistory (α : Type) where
  past : List α
  present : α
  future : List α
  limit : ℕ

def createDraftHistory (present : α) (limit : ℕ) : DraftHistory α := ⟨[], present, [], limit⟩

/-- `drafts.slice(-limit)`; `slice(-0)` is the whole list. -/
def sliceLast (limit : ℕ) (drafts : List α) : List α :=
  if limit = 0 then drafts else drafts.drop (drafts.length - limit)

/-- A push is recorded unless `record` is `false` or the draft is the present one. -/
def pushDraftHistory [DecidableEq α] (history : DraftHistory α) (next : α) (record : Bool) :
    DraftHistory α :=
  if record = false ∨ next = history.present then { history with present := next }
  else
    { history with
      past := sliceLast history.limit (history.past ++ [history.present])
      present := next, future := [] }

def undoDraftHistory (history : DraftHistory α) : DraftHistory α :=
  match history.past.getLast? with
  | none => history
  | some previous =>
    { history with
      past := history.past.dropLast, present := previous
      future := (history.present :: history.future).take history.limit }

def redoDraftHistory (history : DraftHistory α) : DraftHistory α :=
  match history.future with
  | [] => history
  | next :: future =>
    { history with
      past := sliceLast history.limit (history.past ++ [history.present]), present := next, future }

inductive HistoryOperation (α : Type) where
  | push (next : α) (record : Bool)
  | undo
  | redo

def DraftHistory.apply [DecidableEq α] (history : DraftHistory α) :
    HistoryOperation α → DraftHistory α
  | .push next record => pushDraftHistory history next record
  | .undo => undoDraftHistory history
  | .redo => redoDraftHistory history

/-- The drafts before and after the present one are within the limit. -/
def DraftHistory.Fits (limit : ℕ) (history : DraftHistory α) : Prop :=
  history.limit = limit ∧ history.past.length + history.future.length ≤ limit

variable {history : DraftHistory α} {limit : ℕ} {draft : α} {drafts older : List α}

lemma sliceLast_of_le (h : drafts.length ≤ limit) : sliceLast limit drafts = drafts := by
  simp [sliceLast, Nat.sub_eq_zero_of_le h]

/-- The last drafts are kept. -/
lemma exists_sliceLast_append (older : List α) (h : drafts.length ≤ limit) :
    ∃ left, sliceLast limit (older ++ drafts) = left ++ drafts := by
  unfold sliceLast
  split_ifs
  · exact ⟨older, rfl⟩
  · refine ⟨older.drop ((older ++ drafts).length - limit), List.drop_append_of_le_length ?_⟩
    rw [List.length_append]
    omega

lemma undo_snoc (h : history.past = older ++ [draft]) :
    undoDraftHistory history =
      ⟨older, draft, (history.present :: history.future).take history.limit, history.limit⟩ := by
  simp [undoDraftHistory, h]

lemma redo_cons (h : history.future = draft :: drafts) :
    redoDraftHistory history =
      ⟨sliceLast history.limit (history.past ++ [history.present]), draft, drafts,
        history.limit⟩ := by
  simp [redoDraftHistory, h]

lemma redo_undo (h : history.Fits limit) (hpast : history.past ≠ []) :
    redoDraftHistory (undoDraftHistory history) = history := by
  obtain ⟨rfl, hlength⟩ := h
  obtain ⟨older, draft, hsnoc⟩ := (List.eq_nil_or_concat' history.past).resolve_left hpast
  rw [hsnoc, List.length_append, List.length_singleton] at hlength
  rw [undo_snoc hsnoc, List.take_of_length_le (by simp; omega), redo_cons rfl,
    sliceLast_of_le (by simp; omega), ← hsnoc]

lemma undo_redo (h : history.Fits limit) (hfuture : history.future ≠ []) :
    undoDraftHistory (redoDraftHistory history) = history := by
  obtain ⟨rfl, hlength⟩ := h
  obtain ⟨draft, drafts, hcons⟩ := List.exists_cons_of_ne_nil hfuture
  rw [hcons, List.length_cons] at hlength
  rw [redo_cons hcons, sliceLast_of_le (by simp; omega), undo_snoc rfl,
    List.take_of_length_le (by simp; omega), ← hcons]

/-- As many undos as there are drafts at the end of the past bring the first of them back. -/
lemma present_undo (h : history.past = older ++ drafts) :
    (undoDraftHistory^[drafts.length] history).present ∈ (drafts ++ [history.present]).head? := by
  induction drafts using List.reverseRecOn generalizing history with
  | nil => rfl
  | append_singleton drafts draft ih =>
    have hundo := undo_snoc (h.trans (List.append_assoc ..).symm)
    simpa [hundo] using ih (congrArg DraftHistory.past hundo)

variable [DecidableEq α]

lemma DraftHistory.Fits.apply (hlimit : 1 ≤ limit) (h : history.Fits limit)
    (operation : HistoryOperation α) : (history.apply operation).Fits limit := by
  obtain ⟨rfl, hlength⟩ := h
  cases operation with
  | push next record =>
    rw [DraftHistory.apply, pushDraftHistory]
    split_ifs
    · exact ⟨rfl, hlength⟩
    · refine ⟨rfl, ?_⟩
      simp only [sliceLast, if_neg (Nat.ne_of_gt hlimit), List.length_drop, List.length_nil]
      omega
  | undo =>
    rw [DraftHistory.apply]
    rcases List.eq_nil_or_concat' history.past with hpast | ⟨older, draft, hsnoc⟩
    · rw [undoDraftHistory, hpast]
      exact ⟨rfl, hlength⟩
    · rw [undo_snoc hsnoc]
      refine ⟨rfl, ?_⟩
      simp only [hsnoc, List.length_append, List.length_cons, List.length_take] at hlength ⊢
      omega
  | redo =>
    rw [DraftHistory.apply]
    cases hcons : history.future with
    | nil =>
      rw [redoDraftHistory, hcons]
      exact ⟨rfl, hlength⟩
    | cons draft drafts =>
      rw [hcons, List.length_cons] at hlength
      rw [redo_cons hcons, sliceLast_of_le (by simp; omega)]
      refine ⟨rfl, ?_⟩
      simp only [List.length_append, List.length_singleton]
      omega

/-- The drafts at the end of the past stay there while others are pushed. -/
lemma present_undo_push {pushes : List α} (h : history.past = older ++ drafts)
    (hlength : drafts.length + pushes.length ≤ history.limit)
    (hrecorded : (history.present :: pushes).IsChain fun draft next => next ≠ draft) :
    (undoDraftHistory^[drafts.length + pushes.length]
      (pushes.foldl (pushDraftHistory · · true) history)).present ∈
        (drafts ++ [history.present]).head? := by
  induction pushes generalizing history older drafts with
  | nil => exact present_undo h
  | cons next pushes ih =>
    rw [List.isChain_cons_cons] at hrecorded
    obtain ⟨left, hleft⟩ := @exists_sliceLast_append _ history.limit (drafts ++ [history.present])
      older (by simp at hlength ⊢; omega)
    have hpush : pushDraftHistory history next true =
        ⟨left ++ (drafts ++ [history.present]), next, [], history.limit⟩ := by
      rw [pushDraftHistory, if_neg (by simp [hrecorded.1]), h, List.append_assoc, hleft]
    have hpresent := ih (congrArg DraftHistory.past hpush) (by simp [hpush] at hlength ⊢; omega)
      (by rw [hpush]; exact hrecorded.2)
    rw [List.length_append, List.length_singleton, Nat.add_assoc, Nat.add_comm 1] at hpresent
    simpa using hpresent

/-- **Undo and redo are inverse.** -/
theorem undo_redo_inverse (present : α) (limit : ℕ) (operations : List (HistoryOperation α))
    (hlimit : 1 ≤ limit) (history : DraftHistory α)
    (h : operations.foldl .apply (createDraftHistory present limit) = history) :
    history.past.length + history.future.length ≤ limit ∧
    (history.past ≠ [] → redoDraftHistory (undoDraftHistory history) = history) ∧
    (history.future ≠ [] → undoDraftHistory (redoDraftHistory history) = history) ∧
    ∀ pushes : List α, pushes.length ≤ limit →
      (history.present :: pushes).IsChain (fun draft next => next ≠ draft) →
      (undoDraftHistory^[pushes.length]
        (pushes.foldl (pushDraftHistory · · true) history)).present = history.present := by
  have hfits : history.Fits limit := by
    subst h
    induction operations using List.reverseRecOn with
    | nil => exact ⟨rfl, Nat.zero_le _⟩
    | append_singleton operations operation ih =>
      rw [List.foldl_append]
      exact ih.apply hlimit operation
  refine ⟨hfits.2, redo_undo hfits, undo_redo hfits, fun pushes hlength hrecorded => ?_⟩
  have hpresent := present_undo_push (List.append_nil history.past).symm
    (by simpa [hfits.1] using hlength) hrecorded
  simpa using hpresent.symm

/-- One draft can be undone and one can be done again; two more that are pushed are undone. -/
theorem undo_redo_inverse_second :
    let history := [.push 1 true, .push 2 true, .undo].foldl DraftHistory.apply
      (createDraftHistory 0 2)
    history.past = [0] ∧ history.present = 1 ∧ history.future = [2] ∧
      redoDraftHistory (undoDraftHistory history) = history ∧
      undoDraftHistory (redoDraftHistory history) = history ∧
      (undoDraftHistory^[2] ([3, 4].foldl (pushDraftHistory · · true) history)).present = 1 :=
  have ⟨_, hredo, hundo, hpushes⟩ := undo_redo_inverse 0 2 [.push 1 true, .push 2 true, .undo]
    (by decide) _ rfl
  ⟨rfl, rfl, rfl, hredo (by decide), hundo (by decide), hpushes [3, 4] (by decide) (by decide)⟩

end Flowmind.Drafts
