import Mathlib.Algebra.Order.BigOperators.Group.List
import Mathlib.Algebra.Order.Ring.Nat
import Flowmind.Js.Value

/-!
# Lengths of texts

The length of a text is counted in code units (`utf16Length`) or in bytes.  The lemmas say how the
operations of the language and its JSON format act on both.

* `utf16Slice_eq_iff` — cutting a text does not make it equal to a short one.
* `quote_of_plain` — a text without escapes is written as it is.
-/

namespace Flowmind

/-! ## Code units -/

lemma utf16Width_le_two (c : Char) : utf16Width c ≤ 2 := by
  unfold utf16Width
  split_ifs <;> omega

@[simp] lemma utf16Length_ofList (cs : List Char) :
    utf16Length (String.ofList cs) = (cs.map utf16Width).sum := by
  simp [utf16Length]

@[simp] lemma utf16Length_append (s t : String) :
    utf16Length (s ++ t) = utf16Length s + utf16Length t := by
  simp [utf16Length]

/-- Trimming makes a text no longer. -/
lemma utf16Length_jsTrim_le (s : String) : utf16Length (jsTrim s) ≤ utf16Length s := by
  have hsub : ((s.toList.dropWhile isJsSpace).reverse.dropWhile isJsSpace).reverse.Sublist
      s.toList := by
    rw [List.reverse_sublist.symm, List.reverse_reverse]
    exact (List.dropWhile_sublist _).trans (List.reverse_sublist.mpr (List.dropWhile_sublist _))
  rw [jsTrim, utf16Length_ofList]
  exact (hsub.map utf16Width).sum_le_sum fun _ _ => Nat.zero_le _

/-- A text within the limit is not cut. -/
lemma utf16Take_eq_self : ∀ {cs : List Char} {limit : ℕ},
    (cs.map utf16Width).sum ≤ limit → utf16Take limit cs = cs
  | [], _, _ => rfl
  | c :: cs, limit, h => by
    rw [List.map_cons, List.sum_cons] at h
    rw [utf16Take, if_pos (by omega), utf16Take_eq_self (by omega)]

/-- A text over the limit keeps all but one of the code units that fit. -/
lemma le_sum_utf16Take : ∀ {cs : List Char} {limit : ℕ},
    limit < (cs.map utf16Width).sum → limit ≤ ((utf16Take limit cs).map utf16Width).sum + 1
  | [], _, h => by simp at h
  | c :: cs, limit, h => by
    rw [List.map_cons, List.sum_cons] at h
    rw [utf16Take]
    split_ifs with hfits
    · have hover : limit - utf16Width c < (cs.map utf16Width).sum := by omega
      have hrest := le_sum_utf16Take hover
      rw [List.map_cons, List.sum_cons]
      omega
    · have := utf16Width_le_two c
      omega

lemma utf16Slice_eq_self {s : String} {limit : ℕ} (h : utf16Length s ≤ limit) :
    utf16Slice s limit = s := by
  rw [utf16Slice, utf16Take_eq_self h, String.ofList_toList]

/-- **Cutting a text does not make it equal to a short one.** -/
lemma utf16Slice_eq_iff {s t : String} {limit : ℕ} (h : utf16Length t + 1 < limit) :
    utf16Slice s limit = t ↔ s = t := by
  by_cases hs : utf16Length s ≤ limit
  · rw [utf16Slice_eq_self hs]
  · have hcut : limit ≤ utf16Length (utf16Slice s limit) + 1 := by
      rw [utf16Slice, utf16Length_ofList]
      exact le_sum_utf16Take (by rw [utf16Length] at hs; omega)
    constructor
    · rintro rfl
      omega
    · rintro rfl
      omega

/-! ## Bytes -/

/-- The bytes of a text are those of its characters. -/
lemma utf8ByteSize_ofList (cs : List Char) :
    (String.ofList cs).utf8ByteSize = (cs.map Char.utf8Size).sum := by
  induction cs with
  | nil => rfl
  | cons c cs ih =>
    rw [String.ofList_cons, String.utf8ByteSize_append, String.utf8ByteSize_singleton, ih,
      List.map_cons, List.sum_cons]

/-! ## JSON texts -/

/-- A text without escapes is written as it is, between quotes. -/
lemma quote_of_plain {cs : List Char} (h : ∀ c ∈ cs, escapeChar c = [c]) :
    quote (String.ofList cs) = "\"" ++ String.ofList cs ++ "\"" := by
  have hsame : cs.flatMap escapeChar = cs := by
    induction cs with
    | nil => rfl
    | cons c cs ih =>
      rw [List.flatMap_cons, h c List.mem_cons_self, List.singleton_append,
        ih fun d hd => h d (List.mem_cons_of_mem c hd)]
  rw [quote, String.toList_ofList, hsame, String.ofList_append, String.ofList_append]

end Flowmind
