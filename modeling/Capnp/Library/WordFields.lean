import Mathlib.Data.Nat.Bitwise
import Mathlib.Data.UInt

/-! Fields of a 64-bit word: one that is joined above the others is added to them, and one that
is shifted down and masked is what division leaves.
-/

namespace WordFields

variable (shift : Nat) {width : Nat}

/-- A shift to the left multiplies where nothing is lost. -/
theorem toNat_shiftLeft (value amount : UInt64) (places : amount.toNat = shift)
    (inWord : shift < 64)
    (fits : value.toNat * 2 ^ shift < 2 ^ 64)
    : (value <<< amount).toNat = value.toNat * 2 ^ shift := by
  rw [UInt64.toNat_shiftLeft, places, Nat.mod_eq_of_lt inWord, Nat.shiftLeft_eq,
    Nat.mod_eq_of_lt fits]

/-- A field above all bits of the others. -/
theorem toNat_or_shiftLeft (low value amount : UInt64) (places : amount.toNat = shift)
    (inWord : shift < 64) (small : low.toNat < 2 ^ shift)
    (fits : value.toNat * 2 ^ shift < 2 ^ 64)
    : (low ||| value <<< amount).toNat = low.toNat + value.toNat * 2 ^ shift := by
  rw [UInt64.toNat_or, toNat_shiftLeft shift value amount places inWord fits, Nat.or_comm,
    ← Nat.shiftLeft_eq, ← Nat.shiftLeft_add_eq_or_of_lt small, Nat.shiftLeft_eq, Nat.add_comm]

/-- A shift to the right divides. -/
theorem toNat_shiftRight (w amount : UInt64) (places : amount.toNat = shift) (inWord : shift < 64)
    : (w >>> amount).toNat = w.toNat / 2 ^ shift := by
  rw [UInt64.toNat_shiftRight, places, Nat.mod_eq_of_lt inWord, Nat.shiftRight_eq_div_pow]

/-- A mask takes the remainder. -/
theorem toNat_and_mask (w : UInt64) {mask : UInt64} (ones : mask.toNat = 2 ^ width - 1)
    : (w &&& mask).toNat = w.toNat % 2 ^ width := by
  rw [UInt64.toNat_and, ones, Nat.and_two_pow_sub_one_eq_mod]

/-- Masked bits are those of a number exactly when the word leaves it. -/
theorem and_mask_beq (w mask value : UInt64) (ones : mask.toNat = 2 ^ width - 1)
    : (w &&& mask == value) = decide (w.toNat % 2 ^ width = value.toNat) := by
  rw [Bool.eq_iff_iff, beq_iff_eq, decide_eq_true_iff, ← UInt64.toNat_inj,
    toNat_and_mask w ones]

end WordFields
