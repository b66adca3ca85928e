import Flowmind.Js.Text

/-!
# Keys of data stores, and the limits on their values

What a data store accepts.  A key is a text that is not blank, not too long and free of null bytes;
a value is a JSON value within some limits: on the number of its parts, on their nesting, on the
length of its texts and arrays, and on its size when it is written out.  The check of a value also
looks for cycles, so it is a check of a value whose objects have identities.

* `assertDataStoreKey` — the check of a key.
* `utf16Length_le_of_assertDataStoreKey` — a key has at most 256 code units.
-/

namespace Flowmind.DataStores

/-- The code of the errors of the check of a key. -/
inductive ValidationCode where
  | invalidKey
deriving DecidableEq, Repr

structure DataStoreValidationError where
  code : ValidationCode
  message : String
deriving DecidableEq, Repr

/-! ## Limits

`DATA_STORE_LIMITS`. -/

def maxKeyLength : ℕ := 256

def maxValueBytes : ℕ := 64000

def maxDepth : ℕ := 12

def maxStringLength : ℕ := 32000

def maxArrayItems : ℕ := 1000

/-- How many parts of a value are looked at. -/
def maxOperations : ℕ := 10000

def dangerousKeys : List String := ["__proto__", "prototype", "constructor"]

/-! ## Keys -/

def assertDataStoreKey (key : String) : Except DataStoreValidationError String :=
  if jsTrim key = "" ∨ maxKeyLength < utf16Length key then
    .error ⟨.invalidKey, "Data Store key must be 1-256 characters."⟩
  else if '\x00' ∈ key.toList then
    .error ⟨.invalidKey, "Data Store key cannot contain null bytes."⟩
  else .ok key

lemma utf16Length_le_of_assertDataStoreKey {key : String}
    (h : assertDataStoreKey key = .ok key) : utf16Length key ≤ maxKeyLength := by
  unfold assertDataStoreKey at h
  split_ifs at h with hlength hnull
  exact Nat.le_of_not_lt fun hlt => hlength (.inr hlt)

end Flowmind.DataStores
