import Mathlib

namespace KalpakDb.MachineWord

/-!
# Fixed-width arithmetic

The saturating and checked operations of unsigned machine words, together
with their values as natural numbers.  Linear facts about words are proved by
passing to `toNat` and calling `omega`.
-/

/-- The largest 64-bit word. -/
def maxWord : UInt64 := 18446744073709551615

/-- Addition that stops at the largest word. -/
def saturatingAdd (left right : UInt64) : UInt64 :=
  if left.toNat + right.toNat < 2 ^ 64 then left + right else maxWord

/-- Addition that reports overflow. -/
def checkedAdd (left right : UInt64) : Option UInt64 :=
  if left.toNat + right.toNat < 2 ^ 64 then some (left + right) else none

/-- Subtraction that reports underflow. -/
def checkedSub (left right : UInt64) : Option UInt64 :=
  if right ≤ left then some (left - right) else none

/-- Unsigned size subtraction, which aborts on underflow. -/
def checkedSizeSub (left right : Nat) : Option Nat :=
  if right ≤ left then some (left - right) else none

@[simp] theorem toNat_maxWord : maxWord.toNat = 2 ^ 64 - 1 := rfl

theorem toNat_saturatingAdd (left right : UInt64) :
    (saturatingAdd left right).toNat =
      min (left.toNat + right.toNat) (2 ^ 64 - 1) := by
  unfold saturatingAdd
  split
  · rename_i fits
    rw [UInt64.toNat_add]
    omega
  · rw [toNat_maxWord]
    omega

theorem saturatingAdd_assoc (first second third : UInt64) :
    saturatingAdd (saturatingAdd first second) third =
      saturatingAdd first (saturatingAdd second third) := by
  apply UInt64.toNat_inj.mp
  simp only [toNat_saturatingAdd]
  omega

@[simp] theorem zero_saturatingAdd (word : UInt64) :
    saturatingAdd 0 word = word := by
  have bound := word.toNat_lt
  apply UInt64.toNat_inj.mp
  rw [toNat_saturatingAdd, UInt64.toNat_zero]
  omega

@[simp] theorem saturatingAdd_zero (word : UInt64) :
    saturatingAdd word 0 = word := by
  have bound := word.toNat_lt
  apply UInt64.toNat_inj.mp
  rw [toNat_saturatingAdd, UInt64.toNat_zero]
  omega

/-- A word distinct from the maximum lies strictly below it. -/
theorem toNat_lt_of_ne_maxWord
    {word : UInt64}
    (different : word ≠ maxWord) :
    word.toNat < 2 ^ 64 - 1 := by
  have bound := word.toNat_lt
  have valuesDiffer : word.toNat ≠ maxWord.toNat := by
    intro same
    exact different (UInt64.toNat_inj.mp same)
  rw [toNat_maxWord] at valuesDiffer
  omega

/-- Incrementing a word never lowers it. -/
theorem le_saturatingAdd_one (word : UInt64) :
    word ≤ saturatingAdd word 1 := by
  have bound := word.toNat_lt
  rw [UInt64.le_iff_toNat_le, toNat_saturatingAdd, UInt64.toNat_one]
  omega

/-- Below the maximum an increment is strict. -/
theorem lt_saturatingAdd_one
    {word : UInt64}
    (different : word ≠ maxWord) :
    word < saturatingAdd word 1 := by
  have bound := toNat_lt_of_ne_maxWord different
  rw [UInt64.lt_iff_toNat_lt, toNat_saturatingAdd, UInt64.toNat_one]
  omega

/-- Below the maximum the successor is larger. -/
theorem lt_add_one_of_ne_maxWord
    {word : UInt64}
    (different : word ≠ maxWord) :
    word < word + 1 := by
  have bound := toNat_lt_of_ne_maxWord different
  rw [UInt64.lt_iff_toNat_lt, UInt64.toNat_add, UInt64.toNat_one]
  omega

/-- Below the maximum the successor does not wrap to zero. -/
theorem add_one_ne_zero_of_ne_maxWord
    {word : UInt64}
    (different : word ≠ maxWord) :
    word + 1 ≠ 0 := by
  have bound := toNat_lt_of_ne_maxWord different
  intro zero
  have value := congrArg UInt64.toNat zero
  rw [UInt64.toNat_add, UInt64.toNat_one, UInt64.toNat_zero] at value
  omega

theorem toNat_of_checkedAdd
    {left right total : UInt64}
    (added : checkedAdd left right = some total) :
    total.toNat = left.toNat + right.toNat := by
  unfold checkedAdd at added
  split at added
  · rename_i fits
    cases added
    rw [UInt64.toNat_add]
    omega
  · cases added

theorem le_of_checkedAdd
    {left right total : UInt64}
    (added : checkedAdd left right = some total) :
    left ≤ total := by
  rw [UInt64.le_iff_toNat_le, toNat_of_checkedAdd added]
  omega

/-- Subtracting a summand back out of a checked sum always succeeds. -/
theorem checkedSub_of_checkedAdd
    {left right total : UInt64}
    (added : checkedAdd left right = some total) :
    checkedSub total right = some left := by
  have value := toNat_of_checkedAdd added
  have ordered : right ≤ total := by
    rw [UInt64.le_iff_toNat_le]
    omega
  have difference : total - right = left := by
    apply UInt64.toNat_inj.mp
    rw [UInt64.toNat_sub_of_le _ _ ordered]
    omega
  simp [checkedSub, ordered, difference]

theorem checkedSizeSub_of_le
    {left right : Nat}
    (ordered : right ≤ left) :
    checkedSizeSub left right = some (left - right) := by
  simp [checkedSizeSub, ordered]

end KalpakDb.MachineWord
