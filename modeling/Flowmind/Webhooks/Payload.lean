import Mathlib.Data.Rat.Floor
import Flowmind.Js.Text

/-!
# Payloads of webhooks

A payload is checked against the limits of its trigger (`validatePayload`), and what is stored of it
is cut at the same limits (`sanitizePayload`).  A payload that is accepted is not cut, except at a
limit that is not a number: nothing exceeds it, but cutting at it leaves nothing.

* `sanitizePayload_of_validatePayload` — with numbers for limits, nothing of it is lost.
* `items_lost` — an array that is accepted and stored without its items.
-/

namespace Flowmind.Webhooks

/-! ## Limits -/

/-- A limit as `Number(…)` reads it from the configuration. -/
inductive Limit where
  | nan
  | infinite (positive : Bool)
  | finite (q : ℚ)
deriving DecidableEq

namespace Limit

/-- `n > limit`. -/
def exceededBy (n : ℕ) : Limit → Bool
  | nan => false
  | infinite positive => !positive
  | finite q => decide (q < n)

/-- How many of `n` items `slice(0, limit)` keeps. -/
def sliced (n : ℕ) : Limit → ℕ
  | nan => 0
  | infinite positive => if positive then n else 0
  | finite q => if q < 0 then (n + ⌈q⌉).toNat else min n ⌊q⌋.toNat

variable {limit : Limit} {m n : ℕ}

/-- What does not exceed a limit is kept, if the limit is a number. -/
lemma sliced_eq (hnan : limit ≠ nan) (h : limit.exceededBy n = false) : limit.sliced n = n := by
  cases limit with
  | nan => exact absurd rfl hnan
  | infinite positive =>
    cases positive with
    | false => cases h
    | true => rfl
  | finite q =>
    have hle : (n : ℚ) ≤ q := not_lt.mp (of_decide_eq_false h)
    have hfloor : (n : ℤ) ≤ ⌊q⌋ := Int.le_floor.mpr hle
    rw [sliced, if_neg (not_lt.mpr ((Nat.cast_nonneg n).trans hle))]
    omega

lemma exceededBy_of_le (hmn : m ≤ n) (h : limit.exceededBy n = false) :
    limit.exceededBy m = false := by
  cases limit with
  | finite q =>
    have hle : (n : ℚ) ≤ q := not_lt.mp (of_decide_eq_false h)
    exact decide_eq_false (not_lt.mpr ((Nat.cast_le.mpr hmn).trans hle))
  | _ => exact h

end Limit

structure PayloadLimits where
  maxBytes : Limit
  maxDepth : Limit
  maxKeys : Limit
  maxArrayLength : Limit
  maxStringLength : Limit
  requireBody : Bool

/-! ## Checking -/

inductive PayloadError where
  | badRequest (message : String)
  | payloadTooLarge (message : String)
deriving DecidableEq

/-- What is known of the parts that have been looked at. -/
structure PayloadStats where
  keys : ℕ := 0
  tooDeep : Bool := false
deriving DecidableEq

mutual

def walkPayload (limits : PayloadLimits) (depth : ℕ) (value : Json) :
    Except PayloadError PayloadStats :=
  if limits.maxDepth.exceededBy depth then .ok { tooDeep := true }
  else
    match value with
    | .null | .bool _ | .num _ => .ok {}
    | .str s =>
      if limits.maxStringLength.exceededBy (utf16Length s) then
        .error (.badRequest "Webhook payload string is too long")
      else .ok {}
    | .arr items =>
      if limits.maxArrayLength.exceededBy items.length then
        .error (.badRequest "Webhook payload array is too long")
      else walkItems limits (depth + 1) items {}
    | .obj fields => walkFields limits (depth + 1) fields {}

def walkItems (limits : PayloadLimits) (depth : ℕ) :
    List Json → PayloadStats → Except PayloadError PayloadStats
  | [], acc => .ok acc
  | entry :: items, acc =>
    (walkPayload limits depth entry).bind fun next =>
      walkItems limits depth items ⟨acc.keys + next.keys, acc.tooDeep || next.tooDeep⟩

def walkFields (limits : PayloadLimits) (depth : ℕ) :
    List (String × Json) → PayloadStats → Except PayloadError PayloadStats
  | [], acc => .ok acc
  | (_, entry) :: fields, acc =>
    (walkPayload limits depth entry).bind fun next =>
      walkFields limits depth fields ⟨acc.keys + 1 + next.keys, acc.tooDeep || next.tooDeep⟩

end

/-- The body is `null` or an object without properties. -/
def isEmptyBody : Json → Bool
  | .null | .obj [] => true
  | _ => false

def validatePayload (limits : PayloadLimits) (body : Json) (rawSize : ℕ) :
    Except PayloadError Unit :=
  if limits.maxBytes.exceededBy rawSize then
    .error (.payloadTooLarge "Webhook payload is too large")
  else if limits.requireBody && isEmptyBody body then
    .error (.badRequest "Webhook payload is required")
  else
    (walkPayload limits 0 body).bind fun stats =>
      if stats.tooDeep then .error (.badRequest "Webhook payload exceeds maximum depth")
      else if limits.maxKeys.exceededBy stats.keys then
        .error (.badRequest "Webhook payload has too many keys")
      else .ok ()

/-! ## Cutting -/

mutual

/-- Entries that are cut off are not looked at; here they are dropped from the results. -/
def sanitizePayload (limits : PayloadLimits) (depth : ℕ) (value : Json) : Json :=
  if limits.maxDepth.exceededBy depth then
    .obj [("truncated", .bool true), ("reason", .str "max_depth")]
  else
    match value with
    | .str s =>
      if limits.maxStringLength.exceededBy (utf16Length s) then
        .str (utf16Slice s (limits.maxStringLength.sliced (utf16Length s)))
      else .str s
    | .arr items =>
      .arr ((sanitizeItems limits (depth + 1) items).take
        (limits.maxArrayLength.sliced items.length))
    | .obj fields =>
      .obj ((sanitizeFields limits (depth + 1) fields).take (limits.maxKeys.sliced fields.length))
    | value => value

def sanitizeItems (limits : PayloadLimits) (depth : ℕ) : List Json → List Json
  | [] => []
  | entry :: items => sanitizePayload limits depth entry :: sanitizeItems limits depth items

def sanitizeFields (limits : PayloadLimits) (depth : ℕ) :
    List (String × Json) → List (String × Json)
  | [] => []
  | (key, entry) :: fields =>
    (key, sanitizePayload limits depth entry) :: sanitizeFields limits depth fields

end

/-! ## What is stored -/

/-- The limits at which entries are cut. -/
def PayloadLimits.AreNumbers (limits : PayloadLimits) : Prop :=
  limits.maxArrayLength ≠ .nan ∧ limits.maxKeys ≠ .nan

/-- The parts that have been looked at are within the limits. -/
def PayloadStats.Fine (limits : PayloadLimits) (stats : PayloadStats) : Prop :=
  stats.tooDeep = false ∧ limits.maxKeys.exceededBy stats.keys = false

variable {limits : PayloadLimits}

lemma not_deep {value : Json} {depth : ℕ} {stats : PayloadStats}
    (h : walkPayload limits depth value = .ok stats) (hfine : stats.Fine limits) :
    limits.maxDepth.exceededBy depth = false := by
  by_contra hdeep
  rw [walkPayload.eq_def, if_pos (Bool.not_eq_false _ ▸ hdeep)] at h
  cases h
  cases hfine.1

mutual

/-- The induction is on the value; what has been counted only grows. -/
lemma sanitizePayload_of_walk (hnumbers : limits.AreNumbers) :
    ∀ {value : Json} {depth : ℕ} {stats : PayloadStats},
      walkPayload limits depth value = .ok stats → stats.Fine limits →
        sanitizePayload limits depth value = value
  | .null, _, _, h, hfine | .bool _, _, _, h, hfine | .num _, _, _, h, hfine => by
    simp [sanitizePayload, not_deep h hfine]
  | .str s, depth, stats, h, hfine => by
    have hdepth := not_deep h hfine
    simp only [walkPayload, hdepth, Bool.false_eq_true, if_false] at h
    split_ifs at h with hlength
    simp [sanitizePayload, hdepth, hlength]
  | .arr items, depth, stats, h, hfine => by
    have hdepth := not_deep h hfine
    simp only [walkPayload, hdepth, Bool.false_eq_true, if_false] at h
    split_ifs at h with hlength
    obtain ⟨-, -, hitems⟩ := sanitizeItems_of_walk hnumbers h hfine
    simp [sanitizePayload, hdepth, hitems, Limit.sliced_eq hnumbers.1 (by simpa using hlength)]
  | .obj fields, depth, stats, h, hfine => by
    have hdepth := not_deep h hfine
    simp only [walkPayload, hdepth] at h
    obtain ⟨-, hkeys, hfields⟩ := sanitizeFields_of_walk hnumbers h hfine
    have hfits := Limit.exceededBy_of_le (by simpa using hkeys) hfine.2
    simp [sanitizePayload, hdepth, hfields, Limit.sliced_eq hnumbers.2 hfits]

lemma sanitizeItems_of_walk (hnumbers : limits.AreNumbers) :
    ∀ {items : List Json} {depth : ℕ} {acc stats : PayloadStats},
      walkItems limits depth items acc = .ok stats → stats.Fine limits →
        acc.tooDeep = false ∧ acc.keys ≤ stats.keys ∧ sanitizeItems limits depth items = items
  | [], depth, acc, stats, h, hfine => by
    cases h
    exact ⟨hfine.1, le_rfl, rfl⟩
  | item :: items, depth, acc, stats, h, hfine => by
    obtain ⟨next, hnext, h⟩ := exists_of_bind_eq_ok h
    obtain ⟨hdeep, hkeys, hitems⟩ := sanitizeItems_of_walk hnumbers h hfine
    obtain ⟨hacc, hdeep⟩ := Bool.or_eq_false_iff.mp hdeep
    dsimp only at hkeys
    have hfine' : next.Fine limits := ⟨hdeep, Limit.exceededBy_of_le (by omega) hfine.2⟩
    rw [sanitizeItems, hitems, sanitizePayload_of_walk hnumbers hnext hfine']
    exact ⟨hacc, by omega, rfl⟩

lemma sanitizeFields_of_walk (hnumbers : limits.AreNumbers) :
    ∀ {fields : List (String × Json)} {depth : ℕ} {acc stats : PayloadStats},
      walkFields limits depth fields acc = .ok stats → stats.Fine limits →
        acc.tooDeep = false ∧ acc.keys + fields.length ≤ stats.keys ∧
          sanitizeFields limits depth fields = fields
  | [], depth, acc, stats, h, hfine => by
    cases h
    exact ⟨hfine.1, le_rfl, rfl⟩
  | (key, entry) :: fields, depth, acc, stats, h, hfine => by
    obtain ⟨next, hnext, h⟩ := exists_of_bind_eq_ok h
    obtain ⟨hdeep, hkeys, hfields⟩ := sanitizeFields_of_walk hnumbers h hfine
    obtain ⟨hacc, hdeep⟩ := Bool.or_eq_false_iff.mp hdeep
    dsimp only at hkeys
    have hfine' : next.Fine limits := ⟨hdeep, Limit.exceededBy_of_le (by omega) hfine.2⟩
    rw [sanitizeFields, hfields, sanitizePayload_of_walk hnumbers hnext hfine', List.length_cons]
    exact ⟨hacc, by omega, rfl⟩

end

/-- **A payload that is accepted is stored as it is**, if the limits for arrays and keys are
numbers. -/
theorem sanitizePayload_of_validatePayload (limits : PayloadLimits) (body : Json) (rawSize : ℕ)
    (hnumbers : limits.AreNumbers) (h : validatePayload limits body rawSize = .ok ()) :
    sanitizePayload limits 0 body = body := by
  rw [validatePayload] at h
  split_ifs at h
  obtain ⟨stats, hwalk, h⟩ := exists_of_bind_eq_ok h
  split_ifs at h with hdeep hkeys
  exact sanitizePayload_of_walk hnumbers hwalk ⟨by simpa using hdeep, by simpa using hkeys⟩

/-- The default limits, with one for arrays. -/
def limitsWith (maxArrayLength : Limit) : PayloadLimits :=
  ⟨.finite 1048576, .finite 8, .finite 1000, maxArrayLength, .finite 16384, true⟩

/-- An order with two items. -/
def orderBody : Json :=
  .obj [("order", .obj [("id", .str "a-1"),
    ("items", .arr [.obj [("sku", .str "x"), ("count", .num 2)], .obj [("sku", .str "")]])])]

theorem sanitizePayload_of_order :
    validatePayload (limitsWith (.finite 200)) orderBody 80 = .ok () ∧
      sanitizePayload (limitsWith (.finite 200)) 0 orderBody = orderBody :=
  ⟨by decide +kernel, sanitizePayload_of_validatePayload (limitsWith (.finite 200)) orderBody 80
    ⟨nofun, nofun⟩ (by decide +kernel)⟩

/-- An array that is accepted because its limit is not a number. -/
theorem items_lost :
    validatePayload (limitsWith .nan) (.arr [.null]) 6 = .ok () ∧
      sanitizePayload (limitsWith .nan) 0 (.arr [.null]) = .arr [] :=
  ⟨rfl, rfl⟩

end Flowmind.Webhooks
