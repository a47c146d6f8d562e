import Capnp.Library.WordFields
import Capnp.Runtime.Builder

/-! The fields of pointer words: what a reader takes out of a word is what was put in, as long
as each field has room for it.
-/

namespace Capnp

open WordFields

-----------------------------------------------------------------------------------------
-- The fields that are read
-----------------------------------------------------------------------------------------

/-- A field of a word is a digit of its number. -/
theorem toNat_shr64_and (w : UInt64) {shift : Nat} (width : Nat) {mask : UInt64}
    (inWord : shift < 64)
    (ones : mask.toNat = 2 ^ width - 1)
    : (shr64 w shift &&& mask).toNat = w.toNat / 2 ^ shift % 2 ^ width := by
  rw [toNat_and_mask _ ones, shr64,
    toNat_shiftRight shift w _ (UInt64.toNat_ofNat_of_lt' (Nat.lt_trans inWord (by decide))) inWord]

section Fields

variable (w : UInt64)

/-- The data size of a struct pointer takes 16 bits from the bit 32 on. -/
theorem wordDataWords_eq : wordDataWords w = w.toNat / 2 ^ 32 % 2 ^ 16 :=
  toNat_shr64_and w _ (by decide) rfl

/-- The pointer count of a struct pointer takes the highest 16 bits. -/
theorem wordPtrCount_eq : wordPtrCount w = w.toNat / 2 ^ 48 % 2 ^ 16 :=
  toNat_shr64_and w _ (by decide) rfl

/-- The segment of a far pointer takes the highest 32 bits. -/
theorem farSegment_eq : farSegment w = w.toNat / 2 ^ 32 % 2 ^ 32 :=
  toNat_shr64_and w _ (by decide) rfl

/-- The offset of a far pointer takes 29 bits from the bit 3 on. -/
theorem farWord_eq : farWord w = w.toNat / 2 ^ 3 % 2 ^ 29 :=
  toNat_shr64_and w _ (by decide) rfl

/-- The element size of a list pointer takes 3 bits from the bit 32 on. -/
theorem wordElemSize_eq : wordElemSize w = w.toNat / 2 ^ 32 % 2 ^ 3 :=
  toNat_shr64_and w _ (by decide) rfl

/-- The element count of a list pointer takes the highest 29 bits. -/
theorem wordElemCount_eq : wordElemCount w = w.toNat / 2 ^ 35 % 2 ^ 29 :=
  toNat_shr64_and w _ (by decide) rfl

/-- The element count of a tag takes 30 bits from the bit 2 on. -/
theorem tagElemCount_eq : tagElemCount w = w.toNat / 2 ^ 2 % 2 ^ 30 :=
  toNat_shr64_and w _ (by decide) rfl

/-- The kind of a pointer is in its lowest two bits. -/
theorem and_three_beq (kind : UInt64) : (w &&& 3 == kind) = decide (w.toNat % 2 ^ 2 = kind.toNat) :=
  and_mask_beq w 3 kind rfl

/-- A far pointer is a double one by its bit 2. -/
theorem isDouble_eq : (shr64 w 2 &&& 1 == 1) = decide (w.toNat / 2 ^ 2 % 2 ^ 1 = 1) := by
  rw [Bool.eq_iff_iff, beq_iff_eq, decide_eq_true_iff, ← UInt64.toNat_inj,
    toNat_shr64_and w 1 (by decide) rfl]
  rfl

end Fields

/-- Extending a sign: the low bits, less a whole turn where the highest of them is set. -/
theorem signExtend_eq (bits : Nat) (inWord : bits + 1 < 64) (x : UInt64)
    : signExtend (bits + 1) x
      = if x.toNat % 2 ^ (bits + 1) < 2 ^ bits then (x.toNat % 2 ^ (bits + 1) : Int)
        else (x.toNat % 2 ^ (bits + 1) : Int) - 2 ^ (bits + 1) := by
  have power (n : Nat) (small : n < 64) : (shl64 1 n).toNat = 2 ^ n := by
    have fits : (1 : UInt64).toNat * 2 ^ n < 2 ^ 64 := by
      rw [UInt64.toNat_one, Nat.one_mul]
      exact Nat.pow_lt_pow_right (by omega) small
    rw [shl64,
      toNat_shiftLeft n 1 _ (UInt64.toNat_ofNat_of_lt' (Nat.lt_trans small (by decide))) small
        fits,
      UInt64.toNat_one, Nat.one_mul]
  have mask : (shl64 1 (bits + 1) - 1).toNat = 2 ^ (bits + 1) - 1 := by
    have one : (1 : UInt64) ≤ shl64 1 (bits + 1) := by
      rw [UInt64.le_iff_toNat_le, power _ inWord]
      exact Nat.one_le_two_pow
    rw [UInt64.toNat_sub_of_le _ _ one, power _ inWord, UInt64.toNat_one]
  have low := toNat_and_mask x mask
  have below := Nat.mod_lt x.toNat (Nat.two_pow_pos (bits + 1))
  have half : 2 ^ (bits + 1) = 2 * 2 ^ bits := Nat.pow_succ'
  have bit : (x.toNat % 2 ^ (bits + 1)) &&& 2 ^ bits = 0 ↔ x.toNat % 2 ^ (bits + 1) < 2 ^ bits := by
    have positive := Nat.two_pow_pos bits
    have quotient : x.toNat % 2 ^ (bits + 1) / 2 ^ bits < 2 := by
      rw [Nat.div_lt_iff_lt_mul positive]
      omega
    rw [Nat.and_two_pow, Nat.testBit_eq_decide_div_mod_eq, Nat.mod_eq_of_lt quotient,
      ← Nat.div_eq_zero_iff_lt positive]
    rcases Nat.lt_or_ge (x.toNat % 2 ^ (bits + 1) / 2 ^ bits) 1 with none | one
    · simp [Nat.lt_one_iff.mp none]
    · have same : x.toNat % 2 ^ (bits + 1) / 2 ^ bits = 1 := by omega
      simp [same]
  have sign
      : ((x &&& (shl64 1 (bits + 1) - 1)) &&& shl64 1 bits != 0)
        = !decide (x.toNat % 2 ^ (bits + 1) < 2 ^ bits) := by
    rw [Bool.eq_iff_iff, bne_iff_ne, Bool.not_eq_true', decide_eq_false_iff_not, Ne,
      ← UInt64.toNat_inj, UInt64.toNat_and, low, power bits (by omega), UInt64.toNat_zero, bit]
  simp only [signExtend, Nat.add_one_ne_zero, if_false, Nat.add_sub_cancel, sign, low,
    power _ inWord, Bool.not_eq_true', decide_eq_false_iff_not, ite_not]
  split_ifs <;> simp

-----------------------------------------------------------------------------------------
-- The words that are written
-----------------------------------------------------------------------------------------

/-- The offsets that fit the field of a pointer. -/
def OffsetInRange (offset : Int) : Prop :=
  -2 ^ 29 ≤ offset ∧ offset < 2 ^ 29

section Offset

variable {offset : Int} (inRange : OffsetInRange offset)

include inRange

/-- An offset is encoded by its remainder. -/
theorem toNat_intToUInt : ((intToUInt 30 offset).toNat : Int) = offset % 2 ^ 30 := by
  obtain ⟨lower, upper⟩ := inRange
  rw [intToUInt]
  split_ifs with positive
  · rw [UInt64.toNat_ofNat_of_lt' (show _ < 2 ^ 64 by omega)]
    omega
  · rw [UInt64.toNat_ofNat_of_lt' (show _ < 2 ^ 64 by omega)]
    omega

/-- An encoded offset has 30 bits. -/
theorem toNat_intToUInt_lt : (intToUInt 30 offset).toNat < 2 ^ 30 := by
  have value := toNat_intToUInt inRange
  omega

/-- A reader finds the target that an offset was taken from. -/
theorem pointerTarget_of_field {w : UInt64} (word : Nat)
    (field : w.toNat / 2 ^ 2 % 2 ^ 30 = (intToUInt 30 offset).toNat)
    : pointerTarget word w = toNat? (Int.ofNat (word + 1) + offset) := by
  have value := toNat_intToUInt inRange
  obtain ⟨lower, upper⟩ := inRange
  have low : (shr64 w 2 &&& 0x3fffffff).toNat = (intToUInt 30 offset).toNat := by
    rw [toNat_shr64_and w 30 (by decide) rfl, field]
  have signed : signExtend 30 (shr64 w 2 &&& 0x3fffffff) = offset := by
    rw [signExtend_eq 29 (by decide), low]
    split_ifs <;> omega
  rw [pointerTarget, signed]

/-- The fields of a struct pointer side by side. -/
theorem toNat_encodeStructPointer {dataWords ptrCount : Nat} (smallData : dataWords < 2 ^ 16)
    (smallCount : ptrCount < 2 ^ 16)
    : (encodeStructPointer offset dataWords ptrCount).toNat
      = (intToUInt 30 offset).toNat * 2 ^ 2 + dataWords * 2 ^ 32 + ptrCount * 2 ^ 48 := by
  have small := toNat_intToUInt_lt inRange
  have data : (UInt64.ofNat dataWords).toNat = dataWords :=
    UInt64.toNat_ofNat_of_lt' (show _ < 2 ^ 64 by omega)
  have count : (UInt64.ofNat ptrCount).toNat = ptrCount :=
    UInt64.toNat_ofNat_of_lt' (show _ < 2 ^ 64 by omega)
  have first := toNat_shiftLeft 2 (intToUInt 30 offset) 2 rfl (by decide)
    (by omega)
  have second := toNat_or_shiftLeft 32 (intToUInt 30 offset <<< 2) (UInt64.ofNat dataWords) 32
    rfl (by decide) (by omega) (by omega)
  rw [encodeStructPointer,
    toNat_or_shiftLeft 48 _ _ _ rfl (by decide) (by omega) (by omega), second, first,
    data, count]

/-- The fields of a list pointer side by side. -/
theorem toNat_encodeListPointer {elemSize elemCount : Nat} (smallSize : elemSize < 2 ^ 3)
    (smallCount : elemCount < 2 ^ 29)
    : (encodeListPointer offset elemSize elemCount).toNat
      = 1 + (intToUInt 30 offset).toNat * 2 ^ 2 + elemSize * 2 ^ 32 + elemCount * 2 ^ 35 := by
  have small := toNat_intToUInt_lt inRange
  have size : (UInt64.ofNat elemSize).toNat = elemSize :=
    UInt64.toNat_ofNat_of_lt' (show _ < 2 ^ 64 by omega)
  have count : (UInt64.ofNat elemCount).toNat = elemCount :=
    UInt64.toNat_ofNat_of_lt' (show _ < 2 ^ 64 by omega)
  have first := toNat_or_shiftLeft 2 1 (intToUInt 30 offset) 2 rfl
    (by decide) (by decide) (by omega)
  have one : (1 : UInt64).toNat = 1 := rfl
  have second := toNat_or_shiftLeft 32 ((1 : UInt64) ||| intToUInt 30 offset <<< 2)
    (UInt64.ofNat elemSize) 32 rfl (by decide)
    (by omega) (by omega)
  rw [encodeListPointer,
    toNat_or_shiftLeft 35 _ _ _ rfl (by decide) (by omega) (by omega), second, first,
    size, count, one]

/-- The parts that a reader takes out of a struct pointer. -/
theorem encodeStructPointer_parts {dataWords ptrCount : Nat} (smallData : dataWords < 2 ^ 16)
    (smallCount : ptrCount < 2 ^ 16)
    : (encodeStructPointer offset dataWords ptrCount &&& 3 == 0) = true
      ∧ wordDataWords (encodeStructPointer offset dataWords ptrCount) = dataWords
      ∧ wordPtrCount (encodeStructPointer offset dataWords ptrCount) = ptrCount := by
  have value := toNat_encodeStructPointer inRange smallData smallCount
  have small := toNat_intToUInt_lt inRange
  refine ⟨?_, ?_, ?_⟩
  · rw [and_three_beq, decide_eq_true_iff, value, UInt64.toNat_zero]
    omega
  · rw [wordDataWords_eq]
    omega
  · rw [wordPtrCount_eq]
    omega

/-- The parts that a reader takes out of a list pointer, which is never null. -/
theorem encodeListPointer_parts {elemSize elemCount : Nat} (smallSize : elemSize < 2 ^ 3)
    (smallCount : elemCount < 2 ^ 29)
    : encodeListPointer offset elemSize elemCount ≠ 0
      ∧ (encodeListPointer offset elemSize elemCount &&& 3 == 1) = true
      ∧ wordElemSize (encodeListPointer offset elemSize elemCount) = elemSize
      ∧ wordElemCount (encodeListPointer offset elemSize elemCount) = elemCount := by
  have value := toNat_encodeListPointer inRange smallSize smallCount
  have small := toNat_intToUInt_lt inRange
  refine ⟨?_, ?_, ?_, ?_⟩
  · intro none
    rw [none, UInt64.toNat_zero] at value
    omega
  · rw [and_three_beq, decide_eq_true_iff, value, UInt64.toNat_one]
    omega
  · rw [wordElemSize_eq]
    omega
  · rw [wordElemCount_eq]
    omega

end Offset

/-- The fields of a tag side by side. -/
theorem toNat_encodeStructTag {elemCount dataWords ptrCount : Nat} (smallElems : elemCount < 2 ^ 30)
    (smallData : dataWords < 2 ^ 16) (smallCount : ptrCount < 2 ^ 16)
    : (encodeStructTag elemCount dataWords ptrCount).toNat
      = elemCount * 2 ^ 2 + dataWords * 2 ^ 32 + ptrCount * 2 ^ 48 := by
  have elems : (UInt64.ofNat elemCount).toNat = elemCount :=
    UInt64.toNat_ofNat_of_lt' (show _ < 2 ^ 64 by omega)
  have data : (UInt64.ofNat dataWords).toNat = dataWords :=
    UInt64.toNat_ofNat_of_lt' (show _ < 2 ^ 64 by omega)
  have count : (UInt64.ofNat ptrCount).toNat = ptrCount :=
    UInt64.toNat_ofNat_of_lt' (show _ < 2 ^ 64 by omega)
  have first := toNat_shiftLeft 2 (UInt64.ofNat elemCount) 2 rfl (by decide)
    (by omega)
  have second := toNat_or_shiftLeft 32 (UInt64.ofNat elemCount <<< 2)
    (UInt64.ofNat dataWords) 32 rfl (by decide) (by omega) (by omega)
  rw [encodeStructTag,
    toNat_or_shiftLeft 48 _ _ _ rfl (by decide) (by omega) (by omega), second, first,
    elems, data, count]

/-- The parts that a reader takes out of a tag. -/
theorem encodeStructTag_parts {elemCount dataWords ptrCount : Nat} (smallElems : elemCount < 2 ^ 30)
    (smallData : dataWords < 2 ^ 16) (smallCount : ptrCount < 2 ^ 16)
    : (encodeStructTag elemCount dataWords ptrCount &&& 3 == 0) = true
      ∧ tagElemCount (encodeStructTag elemCount dataWords ptrCount) = elemCount
      ∧ wordDataWords (encodeStructTag elemCount dataWords ptrCount) = dataWords
      ∧ wordPtrCount (encodeStructTag elemCount dataWords ptrCount) = ptrCount := by
  have value := toNat_encodeStructTag smallElems smallData smallCount
  refine ⟨?_, ?_, ?_, ?_⟩
  · rw [and_three_beq, decide_eq_true_iff, value, UInt64.toNat_zero]
    omega
  · rw [tagElemCount_eq]
    omega
  · rw [wordDataWords_eq]
    omega
  · rw [wordPtrCount_eq]
    omega

/-- The fields of a far pointer with a single landing pad side by side. -/
theorem toNat_encodeFarPointer {segId offset : Nat} (smallSegment : segId < 2 ^ 32)
    (smallOffset : offset < 2 ^ 29)
    : (encodeFarPointer false segId offset).toNat = 2 + offset * 2 ^ 3 + segId * 2 ^ 32 := by
  have place : (UInt64.ofNat offset).toNat = offset :=
    UInt64.toNat_ofNat_of_lt' (show _ < 2 ^ 64 by omega)
  have segment : (UInt64.ofNat segId).toNat = segId :=
    UInt64.toNat_ofNat_of_lt' (show _ < 2 ^ 64 by omega)
  have single : (2 : UInt64) ||| UInt64.ofNat 0 <<< 2 = 2 := by decide
  have two : (2 : UInt64).toNat = 2 := rfl
  have first := toNat_or_shiftLeft 3 2 (UInt64.ofNat offset) 3 rfl
    (by decide) (by decide) (by omega)
  simp only [encodeFarPointer, Bool.false_eq_true, if_false, single]
  rw [toNat_or_shiftLeft 32 _ _ _ rfl (by decide) (by omega) (by omega), first, place,
    segment, two]

/-- The parts that a reader takes out of a far pointer with a single landing pad. -/
theorem encodeFarPointer_parts {seg pad : Nat} (bound : seg < 2 ^ 32) (small : pad < 2 ^ 29)
    : encodeFarPointer false seg pad ≠ 0
      ∧ (encodeFarPointer false seg pad &&& 3 == 2) = true
      ∧ (encodeFarPointer false seg pad &&& 3 == 3) = false
      ∧ (shr64 (encodeFarPointer false seg pad) 2 &&& 1 == 1) = false
      ∧ farSegment (encodeFarPointer false seg pad) = seg
      ∧ farWord (encodeFarPointer false seg pad) = pad := by
  have value := toNat_encodeFarPointer bound small
  have kind : (encodeFarPointer false seg pad).toNat % 2 ^ 2 = 2 := by omega
  refine ⟨?_, ?_, ?_, ?_, ?_, ?_⟩
  · intro zero
    rw [zero] at kind
    cases kind
  · rw [and_three_beq, decide_eq_true_iff]
    exact kind
  · rw [and_three_beq, decide_eq_false_iff_not, kind]
    decide
  · rw [isDouble_eq, decide_eq_false_iff_not]
    omega
  · rw [farSegment_eq]
    omega
  · rw [farWord_eq]
    omega

/-- The fields of a capability pointer side by side. -/
theorem toNat_encodeCapabilityPointer (index : UInt32)
    : (encodeCapabilityPointer index).toNat = 3 + index.toNat * 2 ^ 32 := by
  have small := index.toNat_lt
  have same : index.toUInt64.toNat = index.toNat := UInt32.toNat_toUInt64 index
  rw [encodeCapabilityPointer,
    toNat_or_shiftLeft 32 _ _ _ rfl (by decide) (by decide) (by omega), same]
  rfl

/-- A capability pointer is told by its lower half. -/
theorem encodeCapabilityPointer_kind (index : UInt32)
    : (encodeCapabilityPointer index &&& 0xffffffff == 3) = true := by
  have small := index.toNat_lt
  have ones : (0xffffffff : UInt64).toNat = 2 ^ 32 - 1 := rfl
  rw [and_mask_beq _ _ _ ones, decide_eq_true_iff, toNat_encodeCapabilityPointer]
  simp only [UInt64.reduceToNat]
  omega

/-- The index of a capability pointer is read back. -/
theorem encodeCapabilityPointer_index (index : UInt32)
    : (shr64 (encodeCapabilityPointer index) 32).toUInt32 = index := by
  have small := index.toNat_lt
  rw [← UInt32.toNat_inj, UInt64.toNat_toUInt32, shr64,
    toNat_shiftRight 32 _ _ (UInt64.toNat_ofNat_of_lt' (by decide)) (by decide),
    toNat_encodeCapabilityPointer]
  omega

/-- No capability pointer is null. -/
theorem encodeCapabilityPointer_ne_zero (index : UInt32) : encodeCapabilityPointer index ≠ 0 := by
  intro null
  have kind := encodeCapabilityPointer_kind index
  rw [null] at kind
  cases kind

/-- The lowest two bits of a capability pointer are set. -/
theorem encodeCapabilityPointer_three (index : UInt32)
    : (encodeCapabilityPointer index &&& 3 == 3) = true := by
  have value := toNat_encodeCapabilityPointer index
  rw [and_three_beq, decide_eq_true_iff, value]
  simp only [UInt64.reduceToNat]
  omega

end Capnp
