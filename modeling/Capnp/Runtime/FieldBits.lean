import Capnp.Library.BitFields
import Capnp.Library.WordFields
import Capnp.Runtime.PointerTargets

/-! The data of messages as bits. Every scalar is read from its own bits, and writing one
changes these and no others.
-/

namespace Capnp

open BitFields ByteString FixedWidth MessageBuilder WordFields

/-- The bits of a segment, each byte from its lowest bit on. -/
def MessageBuilder.bitAt (st : MessageBuilder) (seg k : Nat) : Bool :=
  (st.byteAt seg (k / 8)).toNat.testBit (k % 8)

/-- A bit of a message is one of a byte. -/
theorem getBit_eq_testBit (msg : Message) (seg k : Nat)
    : getBit msg seg k = (readByte msg seg (k / 8)).toNat.testBit (k % 8) :=
  getBit_byte _ (Nat.mod_lt _ (by decide))

/-- A finished message has the bits that are in use. -/
theorem getBit_buildMessage {st : MessageBuilder} (valid : st.Valid) {seg k : Nat}
    (owned : k < st.used seg * 64) : getBit (buildMessage st) seg k = st.bitAt seg k := by
  rw [getBit_eq_testBit, readByte_buildMessage valid (by omega), bitAt]

/-- A word that is kept keeps its bits. -/
theorem bitAt_of_wordAt {st st' : MessageBuilder} {seg k : Nat}
    (kept : st'.wordAt (seg, k / 64) = st.wordAt (seg, k / 64))
    : st'.bitAt seg k = st.bitAt seg k := by
  have inWord : k / 8 % 8 < 8 := Nat.mod_lt _ (by decide)
  have place : k / 64 * 8 + k / 8 % 8 = k / 8 := by omega
  have byte := getD_wordAt st (seg, k / 64) inWord
  have byte' := getD_wordAt st' (seg, k / 64) inWord
  rw [kept, byte, place] at byte'
  rw [bitAt, bitAt, byte']

-----------------------------------------------------------------------------------------
-- The bytes of numbers
-----------------------------------------------------------------------------------------

/-- The bits of a byte of a number. -/
theorem testBit_digit (n shift : Nat) {t : Nat} (inByte : t < 8)
    : (n / 2 ^ shift % 2 ^ 8).testBit t = n.testBit (shift + t) := by
  rw [Nat.testBit_mod_two_pow, Nat.testBit_div_two_pow, decide_eq_true inByte, Bool.true_and,
    Nat.add_comm]

/-- The bits of two bytes. -/
theorem testBit_uint16Le (v : UInt16) {i t : Nat} (inside : i < 2) (inByte : t < 8)
    : ((uint16Le v).getD i 0).toNat.testBit t = v.toNat.testBit (8 * i + t) := by
  rw [← testBit_digit v.toNat (8 * i) inByte]
  have low : v.toUInt8.toNat = v.toNat / 2 ^ (8 * 0) % 2 ^ 8 := by simp
  have high : (v >>> 8).toUInt8.toNat = v.toNat / 2 ^ (8 * 1) % 2 ^ 8 := by
    rw [UInt16.toNat_toUInt8, UInt16.toNat_shiftRight, Nat.shiftRight_eq_div_pow]
    rfl
  match i with
  | 0 => exact congrArg (Nat.testBit · t) low
  | 1 => exact congrArg (Nat.testBit · t) high

/-- The bits of four bytes. -/
theorem testBit_uint32Le (v : UInt32) {i t : Nat} (inside : i < 4) (inByte : t < 8)
    : ((uint32Le v).getD i 0).toNat.testBit t = v.toNat.testBit (8 * i + t) := by
  rw [← testBit_digit v.toNat (8 * i) inByte]
  have low : v.toUInt8.toNat = v.toNat / 2 ^ (8 * 0) % 2 ^ 8 := by simp
  match i with
  | 0 => exact congrArg (Nat.testBit · t) low
  | 1 => exact congrArg (Nat.testBit · t) (toNat_byte_of_uint32 v 8 8 rfl (by decide))
  | 2 => exact congrArg (Nat.testBit · t) (toNat_byte_of_uint32 v 16 16 rfl (by decide))
  | 3 => exact congrArg (Nat.testBit · t) (toNat_byte_of_uint32 v 24 24 rfl (by decide))

/-- The bits of eight bytes. -/
theorem testBit_wordBytes (w : UInt64) {i t : Nat} (inside : i < 8) (inByte : t < 8)
    : ((wordBytes w).getD i 0).toNat.testBit t = w.toNat.testBit (8 * i + t) := by
  have byte : (wordBytes w).getD i 0 = (shr64 w (8 * i)).toUInt8 := by
    simp [wordBytes, inside]
  rw [byte, UInt64.toNat_toUInt8, shr64,
    toNat_shiftRight (8 * i) _ _ (UInt64.toNat_ofNat_of_lt' (show _ < 2 ^ 64 by omega))
      (by omega),
    testBit_digit _ _ inByte]

namespace Scalar

/-- The bytes that bits are written as, but for booleans. -/
def wire (s : Scalar) (bits : BitVec s.width) : List UInt8 :=
  match s with
  | .bool => []
  | .int8 | .uint8 => [.ofBitVec bits]
  | .int16 | .uint16 => uint16Le (.ofBitVec bits)
  | .int32 | .uint32 | .float32 => uint32Le (.ofBitVec bits)
  | .int64 | .uint64 | .float64 => wordBytes (.ofBitVec bits)

variable {s : Scalar}

/-- A scalar has the bytes of its width. -/
theorem length_wire (bytes : s ≠ .bool) (bits : BitVec s.width)
    : (s.wire bits).length * 8 = s.width := by
  cases s with
  | bool => exact absurd rfl bytes
  | int8 | uint8 | int16 | uint16 | int32 | uint32 | float32 => rfl
  | int64 | uint64 | float64 => simp [wire, wordBytes, width]

/-- The bits of a scalar by its bytes. -/
theorem testBit_wire (bytes : s ≠ .bool) (bits : BitVec s.width) {i t : Nat}
    (inside : i * 8 < s.width) (inByte : t < 8)
    : ((s.wire bits).getD i 0).toNat.testBit t = bits.getLsbD (8 * i + t) := by
  cases s with
  | bool => exact absurd rfl bytes
  | int8 | uint8 =>
      obtain rfl : i = 0 := by
        simp only [width] at inside
        omega
      rw [Nat.mul_zero, Nat.zero_add]
      rfl
  | int16 | uint16 =>
      exact testBit_uint16Le (.ofBitVec bits) (by simp only [width] at inside; omega) inByte
  | int32 | uint32 | float32 =>
      exact testBit_uint32Le (.ofBitVec bits) (by simp only [width] at inside; omega) inByte
  | int64 | uint64 | float64 =>
      exact testBit_wordBytes (.ofBitVec bits) (by simp only [width] at inside; omega) inByte

/-- Apart from booleans, scalars are written as their bytes. -/
theorem write_eq_writeBytesAt (bytes : s ≠ .bool) (b : StructBuilder) (offset : Nat)
    (bits : BitVec s.width)
    : s.write b offset bits = writeBytesAt b.seg (b.dataOff * 8 + offset) (s.wire bits) := by
  cases s with
  | bool => exact absurd rfl bytes
  | _ => rfl

/-- Apart from booleans, offsets count bytes. -/
theorem bitOffset_of_bytes (bytes : s ≠ .bool)
    (offset : Nat) : s.bitOffset offset = 8 * offset := by
  cases s with
  | bool => exact absurd rfl bytes
  | _ => rfl

/-- The bytes of what is read are those of the segment. -/
theorem getD_wire_read (bytes : s ≠ .bool) (r : StructReader) (offset : Nat) {i : Nat}
    (inside : i * 8 < s.width)
    : (s.wire (s.read r offset)).getD i 0 = readByte r.msg r.seg (r.dataOff * 8 + offset + i) := by
  cases s with
  | bool => exact absurd rfl bytes
  | int8 | uint8 =>
      obtain rfl : i = 0 := by
        simp only [width] at inside
        omega
      rfl
  | int16 | uint16 =>
      have wire : uint16Le (getUInt16 r offset)
          = [readByte r.msg r.seg (r.dataOff * 8 + offset),
              readByte r.msg r.seg (r.dataOff * 8 + offset + 1)] :=
        uint16Le_ofUint16Le _ _
      show (uint16Le (getUInt16 r offset)).getD i 0 = _
      rw [wire]
      have inside : i < 2 := by
        simp only [width] at inside
        omega
      match i with
      | 0 | 1 => rfl
  | int32 | uint32 | float32 =>
      have wire : uint32Le (getUInt32 r offset)
          = [readByte r.msg r.seg (r.dataOff * 8 + offset),
              readByte r.msg r.seg (r.dataOff * 8 + offset + 1),
              readByte r.msg r.seg (r.dataOff * 8 + offset + 2),
              readByte r.msg r.seg (r.dataOff * 8 + offset + 3)] :=
        uint32Le_ofUint32Le _ _ _ _
      show (uint32Le (getUInt32 r offset)).getD i 0 = _
      rw [wire]
      have inside : i < 4 := by
        simp only [width] at inside
        omega
      match i with
      | 0 | 1 | 2 | 3 => rfl
  | int64 | uint64 | float64 =>
      show (wordBytes (getUInt64 r offset)).getD i 0 = _
      have inside : i < 8 := by
        simp only [width] at inside
        omega
      rw [getUInt64, readUInt64, wordBytes_wordOfBytes,
        List.getD_eq_getElem _ _ (by simpa using inside), List.getElem_map, List.getElem_range]
      rfl

/-- A scalar is read from its own bits, wherever its struct is. -/
theorem read_eq_slice (s : Scalar) (r : StructReader) (offset : Nat)
    : s.read r offset
      = slice (getBit r.msg r.seg) (r.dataOff * 64 + s.bitOffset offset) s.width := by
  rw [eq_slice_iff]
  intro j inside
  by_cases bytes : s = .bool
  · subst bytes
    obtain rfl : j = 0 := Nat.lt_one_iff.mp inside
    show (BitVec.ofBool (getBool r offset)).getLsbD 0 = getBit r.msg r.seg _
    rw [BitVec.getLsbD_ofBool]
    exact Bool.true_and _
  · have inByte : j % 8 < 8 := Nat.mod_lt _ (by decide)
    have digit := testBit_wire bytes (s.read r offset) (show j / 8 * 8 < s.width by omega) inByte
    have place : (r.dataOff * 64 + 8 * offset + j) / 8 = r.dataOff * 8 + offset + j / 8 := by omega
    have bit : (r.dataOff * 64 + 8 * offset + j) % 8 = j % 8 := by omega
    rw [getD_wire_read bytes r offset (show j / 8 * 8 < s.width by omega), Nat.div_add_mod] at digit
    rw [getBit_eq_testBit, bitOffset_of_bytes bytes, place, bit, digit]

end Scalar

-----------------------------------------------------------------------------------------
-- The bits that are written
-----------------------------------------------------------------------------------------

/-- The bits after writing bytes. -/
theorem bitAt_writeBytesAt {st : MessageBuilder} (valid : st.Valid) {seg byteOff : Nat}
    {src : List UInt8} (owned : byteOff + src.length ≤ st.used seg * 8) (seg' k : Nat)
    : (writeBytesAt seg byteOff src st).bitAt seg' k
      = if seg' = seg ∧ byteOff * 8 ≤ k ∧ k < byteOff * 8 + src.length * 8 then
          (src.getD (k / 8 - byteOff) 0).toNat.testBit (k % 8)
        else st.bitAt seg' k := by
  have room := valid.inside seg
  rw [bitAt, byteAt_writeBytesAt, bitAt]
  have same
      : ((seg' = seg ∧ byteOff ≤ k / 8 ∧ k / 8 < byteOff + src.length)
          ∧ k / 8 < (st.segments.getD seg []).length)
        ↔ seg' = seg ∧ byteOff * 8 ≤ k ∧ k < byteOff * 8 + src.length * 8 := by
    constructor
    · rintro ⟨⟨sameSeg, low, high⟩, -⟩
      exact ⟨sameSeg, by omega, by omega⟩
    · rintro ⟨sameSeg, low, high⟩
      exact ⟨⟨sameSeg, by omega, by omega⟩, by omega⟩
  by_cases inside : seg' = seg ∧ byteOff * 8 ≤ k ∧ k < byteOff * 8 + src.length * 8
  · rw [if_pos (same.mpr inside), if_pos inside]
  · rw [if_neg (fun both => inside (same.mp both)), if_neg inside]

/-- Setting a bit of a byte leaves its other bits. -/
theorem testBit_set_other (byte : UInt8) (value : Bool) {i j : Nat} (inByte : i < 8)
    (other : j ≠ i)
    : (if value then byte ||| (shl64 1 i).toUInt8
        else byte &&& ~~~(shl64 1 i).toUInt8).toNat.testBit j = byte.toNat.testBit j := by
  have bit := toNat_bit inByte
  have small : 2 ^ i < 2 ^ 8 := Nat.pow_lt_pow_right (by omega) inByte
  cases value with
  | true =>
      show (byte ||| (shl64 1 i).toUInt8).toNat.testBit j = _
      rw [UInt8.toNat_or, bit, Nat.testBit_or, Nat.testBit_two_pow_of_ne (Ne.symm other),
        Bool.or_false]
  | false =>
      have complement : (~~~(shl64 1 i).toUInt8).toNat = 2 ^ 8 - (2 ^ i + 1) := by
        rw [UInt8.toNat_not, bit, UInt8.size]
        omega
      show (byte &&& ~~~(shl64 1 i).toUInt8).toNat.testBit j = _
      rw [UInt8.toNat_and, complement, Nat.testBit_and, Nat.testBit_two_pow_sub_succ small,
        Nat.testBit_two_pow_of_ne (Ne.symm other), Bool.not_false, Bool.and_true]
      by_cases inByte : j < 8
      · rw [decide_eq_true inByte, Bool.and_true]
      · have clear : byte.toNat.testBit j = false := by
          apply Nat.testBit_lt_two_pow
          exact Nat.lt_of_lt_of_le byte.toNat_lt (Nat.pow_le_pow_right (by decide) (by omega))
        rw [clear, Bool.false_and]

/-- The bits after setting one. -/
theorem bitAt_setBitB {st : MessageBuilder} (valid : st.Valid) {seg bitOff : Nat}
    (owned : bitOff < st.used seg * 64) (value : Bool) (seg' k : Nat)
    : (setBitB seg bitOff value st).bitAt seg' k
      = if seg' = seg ∧ k = bitOff then value else st.bitAt seg' k := by
  have inByte : bitOff % 8 < 8 := Nat.mod_lt _ (by decide)
  rw [setBitB, writeByte, bitAt_writeBytesAt valid (by simp only [List.length_singleton]; omega)]
  rw [List.length_singleton]
  by_cases byte : seg' = seg ∧ bitOff / 8 * 8 ≤ k ∧ k < bitOff / 8 * 8 + 1 * 8
  · obtain ⟨rfl, low, high⟩ := byte
    have first : k / 8 - bitOff / 8 = 0 := by omega
    have place : k / 8 = bitOff / 8 := by omega
    rw [if_pos ⟨rfl, low, high⟩, first, List.getD_cons_zero]
    by_cases same : k = bitOff
    · rw [if_pos (show seg' = seg' ∧ k = bitOff from ⟨rfl, same⟩), same]
      exact testBit_set_bit _ value inByte
    · rw [testBit_set_other _ value inByte (show k % 8 ≠ bitOff % 8 by omega),
        if_neg (show ¬ (seg' = seg' ∧ k = bitOff) from fun both => same both.2), bitAt, place]
      rfl
  · rw [if_neg byte, if_neg]
    rintro ⟨rfl, rfl⟩
    exact byte ⟨rfl, by omega, by omega⟩

/-- A scalar is written to its own bits, as one update of the bits of its segment. -/
theorem Scalar.bitAt_write (s : Scalar) {st : MessageBuilder} (valid : st.Valid) {b : StructBuilder}
    {offset : Nat}
    (owned : b.dataOff * 64 + s.bitOffset offset + s.width ≤ st.used b.seg * 64)
    (bits : BitVec s.width)
    : (s.write b offset bits st).bitAt b.seg
        = update (st.bitAt b.seg) (b.dataOff * 64 + s.bitOffset offset) bits
      ∧ ∀ seg ≠ b.seg, (s.write b offset bits st).bitAt seg = st.bitAt seg := by
  by_cases bytes : s = .bool
  · subst bytes
    have owned : b.dataOff * 64 + offset < st.used b.seg * 64 := owned
    refine ⟨funext fun k => ?_, fun seg other => funext fun k => ?_⟩
    · show (setBitB b.seg (b.dataOff * 64 + offset) (bits == 1#1) st).bitAt b.seg k = _
      rw [bitAt_setBitB valid owned, update]
      by_cases same : k = b.dataOff * 64 + offset
      · have value : (bits == 1#1) = bits.getLsbD 0 := by
          have all : ∀ bits : BitVec 1, (bits == 1#1) = bits.getLsbD 0 := by decide
          exact all bits
        subst same
        rw [if_pos ⟨rfl, rfl⟩, value, if_pos ⟨Nat.le_refl _, Nat.lt_succ_self _⟩]
        exact congrArg bits.getLsbD (Nat.sub_self _).symm
      · rw [if_neg (fun both => same both.2), if_neg]
        simp only [Scalar.bitOffset, Scalar.width]
        omega
    · exact (bitAt_setBitB valid owned _ seg k).trans (if_neg (fun both => other both.1))
  · have length := Scalar.length_wire bytes bits
    rw [Scalar.bitOffset_of_bytes bytes] at owned ⊢
    have owned : b.dataOff * 8 + offset + (s.wire bits).length ≤ st.used b.seg * 8 := by omega
    rw [Scalar.write_eq_writeBytesAt bytes]
    refine ⟨funext fun k => ?_, fun seg other => funext fun k => ?_⟩
    · have start : (b.dataOff * 8 + offset) * 8 = b.dataOff * 64 + 8 * offset := by omega
      rw [bitAt_writeBytesAt valid owned, update, start, length]
      by_cases inside : b.dataOff * 64 + 8 * offset ≤ k
          ∧ k < b.dataOff * 64 + 8 * offset + s.width
      · have inByte : k % 8 < 8 := Nat.mod_lt _ (by decide)
        have digit := Scalar.testBit_wire bytes bits
          (show (k / 8 - (b.dataOff * 8 + offset)) * 8 < s.width by omega) inByte
        have place
            : 8 * (k / 8 - (b.dataOff * 8 + offset)) + k % 8
              = k - (b.dataOff * 64 + 8 * offset) := by
          omega
        rw [if_pos ⟨rfl, inside⟩, if_pos inside, digit, place]
      · rw [if_neg (fun both => inside both.2), if_neg inside]
    · exact (bitAt_writeBytesAt valid owned seg k).trans (if_neg (fun both => other both.1))

end Capnp
