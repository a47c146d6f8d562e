import Capnp.Library.FixedWidth
import Capnp.Runtime.CopyStruct
import Capnp.Runtime.Floats

/-! The scalar accessors of the runtime by one description: what each reads and writes is a
number of bits at an offset of the data section, masked with a default.
-/

namespace Capnp

open ByteString MessageBuilder

-----------------------------------------------------------------------------------------
-- Setters
-----------------------------------------------------------------------------------------

def getByteB (seg byteOff : Nat) (st : MessageBuilder) : UInt8 :=
  (st.segments.getD seg []).getD byteOff 0

def writeByte (seg byteOff : Nat) (b : UInt8) : MessageBuilder → MessageBuilder :=
  writeBytesAt seg byteOff [b]

def writeUInt16LE (seg byteOff : Nat) (v : UInt16) : MessageBuilder → MessageBuilder :=
  writeBytesAt seg byteOff (uint16Le v)

def writeUInt32LE (seg byteOff : Nat) (v : UInt32) : MessageBuilder → MessageBuilder :=
  writeBytesAt seg byteOff (uint32Le v)

def writeUInt64LE (seg byteOff : Nat) (v : UInt64) : MessageBuilder → MessageBuilder :=
  writeBytesAt seg byteOff (wordBytes v)

def setBitB (seg bitOff : Nat) (value : Bool) (st : MessageBuilder) : MessageBuilder :=
  let byteOff := bitOff / 8
  let b := getByteB seg byteOff st
  let mask := (shl64 1 (bitOff % 8)).toUInt8
  writeByte seg byteOff (if value then b ||| mask else b &&& ~~~mask) st

def dataByteOffB (r : StructBuilder) (byteOff : Nat) : Nat :=
  r.dataOff * 8 + byteOff

section Setters

variable (r : StructBuilder)

def setBool (bitOff : Nat) (v : Bool) : MessageBuilder → MessageBuilder :=
  setBitB r.seg (r.dataOff * 64 + bitOff) v

def setBoolMasked (bitOff : Nat) (mask v : Bool) : MessageBuilder → MessageBuilder :=
  setBool r bitOff (if mask then !v else v)

def setUInt8 (byteOff : Nat) (v : UInt8) : MessageBuilder → MessageBuilder :=
  writeByte r.seg (dataByteOffB r byteOff) v

def setUInt8Masked (byteOff : Nat) (mask v : UInt8) : MessageBuilder → MessageBuilder :=
  setUInt8 r byteOff (v ^^^ mask)

def setUInt16 (byteOff : Nat) (v : UInt16) : MessageBuilder → MessageBuilder :=
  writeUInt16LE r.seg (dataByteOffB r byteOff) v

def setUInt16Masked (byteOff : Nat) (mask v : UInt16) : MessageBuilder → MessageBuilder :=
  setUInt16 r byteOff (v ^^^ mask)

def setUInt32 (byteOff : Nat) (v : UInt32) : MessageBuilder → MessageBuilder :=
  writeUInt32LE r.seg (dataByteOffB r byteOff) v

def setUInt32Masked (byteOff : Nat) (mask v : UInt32) : MessageBuilder → MessageBuilder :=
  setUInt32 r byteOff (v ^^^ mask)

def setUInt64 (byteOff : Nat) (v : UInt64) : MessageBuilder → MessageBuilder :=
  writeUInt64LE r.seg (dataByteOffB r byteOff) v

def setUInt64Masked (byteOff : Nat) (mask v : UInt64) : MessageBuilder → MessageBuilder :=
  setUInt64 r byteOff (v ^^^ mask)

def setInt8 (byteOff : Nat) (v : Int8) : MessageBuilder → MessageBuilder :=
  setUInt8 r byteOff v.toUInt8

def setInt8Masked (byteOff : Nat) (mask : UInt8) (v : Int8) : MessageBuilder → MessageBuilder :=
  setUInt8 r byteOff (v.toUInt8 ^^^ mask)

def setInt16 (byteOff : Nat) (v : Int16) : MessageBuilder → MessageBuilder :=
  setUInt16 r byteOff v.toUInt16

def setInt16Masked (byteOff : Nat) (mask : UInt16) (v : Int16)
    : MessageBuilder → MessageBuilder :=
  setUInt16 r byteOff (v.toUInt16 ^^^ mask)

def setInt32 (byteOff : Nat) (v : Int32) : MessageBuilder → MessageBuilder :=
  setUInt32 r byteOff v.toUInt32

def setInt32Masked (byteOff : Nat) (mask : UInt32) (v : Int32)
    : MessageBuilder → MessageBuilder :=
  setUInt32 r byteOff (v.toUInt32 ^^^ mask)

def setInt64 (byteOff : Nat) (v : Int64) : MessageBuilder → MessageBuilder :=
  setUInt64 r byteOff v.toUInt64

def setInt64Masked (byteOff : Nat) (mask : UInt64) (v : Int64)
    : MessageBuilder → MessageBuilder :=
  setUInt64 r byteOff (v.toUInt64 ^^^ mask)

def setFloat32 (byteOff : Nat) (v : Float) : MessageBuilder → MessageBuilder :=
  setUInt32 r byteOff (float32Bits v)

def setFloat32Masked (byteOff : Nat) (mask : UInt32) (v : Float)
    : MessageBuilder → MessageBuilder :=
  setUInt32 r byteOff (float32Bits v ^^^ mask)

def setFloat64 (byteOff : Nat) (v : Float) : MessageBuilder → MessageBuilder :=
  setUInt64 r byteOff v.toBits

def setFloat64Masked (byteOff : Nat) (mask : UInt64) (v : Float)
    : MessageBuilder → MessageBuilder :=
  setUInt64 r byteOff (v.toBits ^^^ mask)

end Setters

def getFloat32 (r : StructReader) (byteOff : Nat) : Float :=
  float32FromBits (getUInt32 r byteOff)

def getFloat32Masked (r : StructReader) (byteOff : Nat) (mask : UInt32) : Float :=
  float32FromBits (getUInt32 r byteOff ^^^ mask)

def getFloat64 (r : StructReader) (byteOff : Nat) : Float :=
  .ofBits (getUInt64 r byteOff)

def getFloat64Masked (r : StructReader) (byteOff : Nat) (mask : UInt64) : Float :=
  .ofBits (getUInt64 r byteOff ^^^ mask)

-----------------------------------------------------------------------------------------
-- The accessors as one family
-----------------------------------------------------------------------------------------

/-- The runtime has `get`, `getMasked`, `set` and `setMasked` for each. -/
inductive Scalar where
  | bool | int8 | uint8 | int16 | uint16 | int32 | uint32 | int64 | uint64 | float32 | float64
deriving DecidableEq

namespace Scalar

/-- The number of bits. -/
def width : Scalar → Nat
  | .bool => 1
  | .int8 | .uint8 => 8
  | .int16 | .uint16 => 16
  | .int32 | .uint32 | .float32 => 32
  | .int64 | .uint64 | .float64 => 64

def Value : Scalar → Type
  | .bool => Bool
  | .int8 => Int8
  | .uint8 => UInt8
  | .int16 => Int16
  | .uint16 => UInt16
  | .int32 => Int32
  | .uint32 => UInt32
  | .int64 => Int64
  | .uint64 => UInt64
  | .float32 | .float64 => Float

/-- The accessors of booleans count bits, all others bytes. -/
def bitOffset (s : Scalar) (offset : Nat) : Nat :=
  match s with
  | .bool => offset
  | _ => 8 * offset

/-- The accessor is the masked one when there is a mask. -/
def get (s : Scalar) (r : StructReader) (offset : Nat) (mask : Option (BitVec s.width)) : s.Value :=
  match s, mask with
  | .bool, none => getBool r offset
  | .bool, some mask => getBoolMasked r offset (mask == 1#1)
  | .int8, none => getInt8 r offset
  | .int8, some mask => getInt8Masked r offset (.ofBitVec mask)
  | .uint8, none => getUInt8 r offset
  | .uint8, some mask => getUInt8Masked r offset (.ofBitVec mask)
  | .int16, none => getInt16 r offset
  | .int16, some mask => getInt16Masked r offset (.ofBitVec mask)
  | .uint16, none => getUInt16 r offset
  | .uint16, some mask => getUInt16Masked r offset (.ofBitVec mask)
  | .int32, none => getInt32 r offset
  | .int32, some mask => getInt32Masked r offset (.ofBitVec mask)
  | .uint32, none => getUInt32 r offset
  | .uint32, some mask => getUInt32Masked r offset (.ofBitVec mask)
  | .int64, none => getInt64 r offset
  | .int64, some mask => getInt64Masked r offset (.ofBitVec mask)
  | .uint64, none => getUInt64 r offset
  | .uint64, some mask => getUInt64Masked r offset (.ofBitVec mask)
  | .float32, none => getFloat32 r offset
  | .float32, some mask => getFloat32Masked r offset (.ofBitVec mask)
  | .float64, none => getFloat64 r offset
  | .float64, some mask => getFloat64Masked r offset (.ofBitVec mask)

def set (s : Scalar) (b : StructBuilder) (offset : Nat) (mask : Option (BitVec s.width))
    (v : s.Value) : MessageBuilder → MessageBuilder :=
  match s, mask with
  | .bool, none => setBool b offset v
  | .bool, some mask => setBoolMasked b offset (mask == 1#1) v
  | .int8, none => setInt8 b offset v
  | .int8, some mask => setInt8Masked b offset (.ofBitVec mask) v
  | .uint8, none => setUInt8 b offset v
  | .uint8, some mask => setUInt8Masked b offset (.ofBitVec mask) v
  | .int16, none => setInt16 b offset v
  | .int16, some mask => setInt16Masked b offset (.ofBitVec mask) v
  | .uint16, none => setUInt16 b offset v
  | .uint16, some mask => setUInt16Masked b offset (.ofBitVec mask) v
  | .int32, none => setInt32 b offset v
  | .int32, some mask => setInt32Masked b offset (.ofBitVec mask) v
  | .uint32, none => setUInt32 b offset v
  | .uint32, some mask => setUInt32Masked b offset (.ofBitVec mask) v
  | .int64, none => setInt64 b offset v
  | .int64, some mask => setInt64Masked b offset (.ofBitVec mask) v
  | .uint64, none => setUInt64 b offset v
  | .uint64, some mask => setUInt64Masked b offset (.ofBitVec mask) v
  | .float32, none => setFloat32 b offset v
  | .float32, some mask => setFloat32Masked b offset (.ofBitVec mask) v
  | .float64, none => setFloat64 b offset v
  | .float64, some mask => setFloat64Masked b offset (.ofBitVec mask) v

/-- The bits that are stored. -/
def read (s : Scalar) (r : StructReader) (offset : Nat) : BitVec s.width :=
  match s with
  | .bool => BitVec.ofBool (getBool r offset)
  | .int8 | .uint8 => (getUInt8 r offset).toBitVec
  | .int16 | .uint16 => (getUInt16 r offset).toBitVec
  | .int32 | .uint32 | .float32 => (getUInt32 r offset).toBitVec
  | .int64 | .uint64 | .float64 => (getUInt64 r offset).toBitVec

def write (s : Scalar) (b : StructBuilder) (offset : Nat) (bits : BitVec s.width)
    : MessageBuilder → MessageBuilder :=
  match s with
  | .bool => setBool b offset (bits == 1#1)
  | .int8 | .uint8 => setUInt8 b offset (.ofBitVec bits)
  | .int16 | .uint16 => setUInt16 b offset (.ofBitVec bits)
  | .int32 | .uint32 | .float32 => setUInt32 b offset (.ofBitVec bits)
  | .int64 | .uint64 | .float64 => setUInt64 b offset (.ofBitVec bits)

/-- The value that bits stand for, and the bits that a value is stored as. -/
def ofBits (s : Scalar) (bits : BitVec s.width) : s.Value :=
  match s with
  | .bool => bits == 1#1
  | .int8 => int8FromBits (.ofBitVec bits)
  | .uint8 => UInt8.ofBitVec bits
  | .int16 => int16FromBits (.ofBitVec bits)
  | .uint16 => UInt16.ofBitVec bits
  | .int32 => int32FromBits (.ofBitVec bits)
  | .uint32 => UInt32.ofBitVec bits
  | .int64 => int64FromBits (.ofBitVec bits)
  | .uint64 => UInt64.ofBitVec bits
  | .float32 => float32FromBits (.ofBitVec bits)
  | .float64 => Float.ofBits (.ofBitVec bits)

def toBits (s : Scalar) (v : s.Value) : BitVec s.width :=
  match s with
  | .bool => BitVec.ofBool v
  | .int8 => v.toUInt8.toBitVec
  | .uint8 => v.toBitVec
  | .int16 => v.toUInt16.toBitVec
  | .uint16 => v.toBitVec
  | .int32 => v.toUInt32.toBitVec
  | .uint32 => v.toBitVec
  | .int64 => v.toUInt64.toBitVec
  | .uint64 => v.toBitVec
  | .float32 => (float32Bits v).toBitVec
  | .float64 => v.toBits.toBitVec

/-- A bit is its boolean. -/
theorem ofBool_beq_one (v : Bool) : (BitVec.ofBool v == 1#1) = v := by
  cases v <;> rfl

/-- A set mask negates a boolean. -/
theorem ofBool_xor_beq_one (v : Bool) (mask : BitVec 1)
    : (BitVec.ofBool v ^^^ mask == 1#1) = if mask == 1#1 then !v else v := by
  revert v mask
  decide

/-- The accessors read and write masked bits. -/
theorem get_eq (s : Scalar) (r : StructReader) (offset : Nat) (mask : Option (BitVec s.width))
    : s.get r offset mask = s.ofBits (s.read r offset ^^^ mask.getD 0#s.width) := by
  cases mask with
  | none =>
      rw [Option.getD_none, BitVec.xor_zero]
      cases s with
      | bool => exact (ofBool_beq_one _).symm
      | _ => rfl
  | some mask =>
      cases s with
      | bool => exact (ofBool_xor_beq_one (getBool r offset) mask).symm
      | _ => rfl

/-- Every setter writes the bits of its value, changed by the mask. -/
theorem set_eq (s : Scalar) (b : StructBuilder) (offset : Nat) (mask : Option (BitVec s.width))
    (v : s.Value)
    : s.set b offset mask v = s.write b offset (s.toBits v ^^^ mask.getD 0#s.width) := by
  cases mask with
  | none =>
      rw [Option.getD_none, BitVec.xor_zero]
      cases s with
      | bool => exact congrArg (setBool b offset) (ofBool_beq_one v).symm
      | _ => rfl
  | some mask =>
      cases s with
      | bool => exact congrArg (setBool b offset) (ofBool_xor_beq_one v mask).symm
      | _ => rfl

end Scalar

-----------------------------------------------------------------------------------------
-- Values and their bits
-----------------------------------------------------------------------------------------

/-- A number with the remainder of some bits has these bits. -/
theorem ofInt_eq_of_emod {w : Nat} {i : Int} {bits : BitVec w} (same : i % 2 ^ w = bits.toNat)
    : BitVec.ofInt w i = bits := by
  apply BitVec.eq_of_toNat_eq
  rw [BitVec.toNat_ofInt]
  push_cast
  rw [same, Int.toNat_natCast]

/-- Extending the sign does not change the low bits. -/
theorem signExtend_emod {bits : Nat} (positive : 0 < bits) (inWord : bits < 64) (x : UInt64)
    : signExtend bits x % 2 ^ bits = (x.toNat % 2 ^ bits : Nat) := by
  have amount : (UInt64.ofNat bits).toNat % 64 = bits := by
    rw [UInt64.toNat_ofNat_of_lt' (by omega : bits < 2 ^ 64)]
    omega
  have small : 2 ^ bits < 2 ^ 64 := Nat.pow_lt_pow_right (by omega) inWord
  have power : (shl64 1 bits).toNat = 2 ^ bits := by
    rw [shl64, UInt64.toNat_shiftLeft, amount, UInt64.toNat_one, Nat.one_shiftLeft,
      Nat.mod_eq_of_lt small]
  have mask : (x &&& (shl64 1 bits - 1)).toNat = x.toNat % 2 ^ bits := by
    have one : (1 : UInt64) ≤ shl64 1 bits := by
      rw [UInt64.le_iff_toNat_le, power]
      exact Nat.one_le_two_pow
    rw [UInt64.toNat_and, UInt64.toNat_sub_of_le _ _ one, power]
    exact Nat.and_two_pow_sub_one_eq_mod _ _
  simp only [signExtend, if_neg (Nat.ne_of_gt positive), power, mask]
  split_ifs <;> simp

/-- The sign of a small number is read back. -/
theorem int8FromBits_toUInt8 (v : Int8) : int8FromBits v.toUInt8 = v := by
  rw [← Int8.toBitVec_inj, int8FromBits, Int8.toBitVec_ofInt]
  apply ofInt_eq_of_emod
  rw [signExtend_emod (by omega) (by omega), UInt8.toNat_toUInt64,
    Nat.mod_eq_of_lt v.toUInt8.toNat_lt]
  rfl

/-- The same for 16 bits. -/
theorem int16FromBits_toUInt16 (v : Int16) : int16FromBits v.toUInt16 = v := by
  rw [← Int16.toBitVec_inj, int16FromBits, Int16.toBitVec_ofInt]
  apply ofInt_eq_of_emod
  rw [signExtend_emod (by omega) (by omega), UInt16.toNat_toUInt64,
    Nat.mod_eq_of_lt v.toUInt16.toNat_lt]
  rfl

/-- The same for 32 bits. -/
theorem int32FromBits_toUInt32 (v : Int32) : int32FromBits v.toUInt32 = v := by
  rw [← Int32.toBitVec_inj, int32FromBits, Int32.toBitVec_ofInt]
  apply ofInt_eq_of_emod
  rw [signExtend_emod (by omega) (by omega), UInt32.toNat_toUInt64,
    Nat.mod_eq_of_lt v.toUInt32.toNat_lt]
  rfl

/-- The same for 64 bits. -/
theorem int64FromBits_toUInt64 (v : Int64) : int64FromBits v.toUInt64 = v := by
  have range := v.toUInt64.toNat_lt
  have bits : v.toUInt64.toNat = v.toBitVec.toNat := rfl
  rw [← Int64.toBitVec_inj, int64FromBits, Int64.toBitVec_ofInt]
  apply ofInt_eq_of_emod
  simp only [twoPow64Int, Int.ofNat_eq_natCast, bits] at range ⊢
  split_ifs <;> omega

namespace Scalar

/-- A value comes back from its bits, but for one that single precision does not represent. -/
theorem ofBits_toBits (s : Scalar) {v : s.Value}
    (represented : s = .float32 → ∃ bits, s.ofBits bits = v) : s.ofBits (s.toBits v) = v := by
  cases s with
  | bool => exact ofBool_beq_one v
  | int8 => exact int8FromBits_toUInt8 v
  | int16 => exact int16FromBits_toUInt16 v
  | int32 => exact int32FromBits_toUInt32 v
  | int64 => exact int64FromBits_toUInt64 v
  | float32 =>
      obtain ⟨bits, rfl⟩ := represented rfl
      exact float32FromBits_float32Bits (.ofBitVec bits)
  | uint8 | uint16 | uint32 | uint64 | float64 => rfl

end Scalar

-----------------------------------------------------------------------------------------
-- Reading what was written
-----------------------------------------------------------------------------------------

/-- Allocated words are in use. -/
theorem allocWords_owned {st : MessageBuilder} (valid : st.Valid) (n : Nat)
    : (allocWords n st).1.2 + n ≤ (allocWords n st).2.used (allocWords n st).1.1 := by
  by_cases room : fits st n = true
  · have used := used_allocWords_of_fits valid room st.currentSeg
    rw [if_pos rfl] at used
    simp only [allocWords, if_pos room] at used ⊢
    omega
  · have used := used_allocWords_of_not_fits valid room st.segments.length
    rw [if_pos rfl] at used
    simp only [allocWords, if_neg room] at used ⊢
    omega

/-- The words of a new object are allocated. -/
theorem initObject_owned {st : MessageBuilder} (valid : st.Valid) (p : AnyPointerBuilder)
    (words : Nat) (encode : Int → UInt64)
    : (initObject p words encode st).1.2 + words
      ≤ (initObject p words encode st).2.used (initObject p words encode st).1.1 := by
  by_cases direct : p.seg = st.currentSeg ∧ fits st words
  · have owned := allocWords_owned valid words
    rw [initObject, if_pos direct]
    exact owned
  · have owned := allocWords_owned valid (words + 1)
    rw [initObject, if_neg direct]
    show (allocWords (words + 1) st).1.2 + 1 + words
      ≤ (allocWords (words + 1) st).2.used (allocWords (words + 1) st).1.1
    omega

/-- A new struct has all its words. -/
theorem initStructPointer_allocated {st : MessageBuilder} (valid : st.Valid)
    (p : AnyPointerBuilder) (dataWords ptrCount : Nat)
    : (initStructPointer p dataWords ptrCount st).1.Allocated
        (initStructPointer p dataWords ptrCount st).2 where
  pointers := rfl
  inside := by
    have owned := initObject_owned valid p (dataWords + ptrCount)
      (fun offset => encodeStructPointer offset dataWords ptrCount)
    rw [← Nat.add_assoc] at owned
    exact owned

/-- The struct as a reader of the message that is built has it. -/
def StructBuilder.reader (b : StructBuilder) (st : MessageBuilder) : StructReader where
  msg := buildMessage st
  seg := b.seg
  dataOff := b.dataOff
  dataWords := b.dataWords
  ptrOff := b.ptrOff
  ptrCount := b.ptrCount

/-- A finished message has the bytes that are in use. -/
theorem readByte_buildMessage {st : MessageBuilder} (valid : st.Valid) {seg k : Nat}
    (owned : k < st.used seg * 8) : readByte (buildMessage st) seg k = st.byteAt seg k := by
  have inside := valid.inside seg
  have present : seg < st.segments.length := by
    by_contra absent
    rw [used_of_length_le valid (Nat.le_of_not_lt absent)] at owned
    omega
  have kept
      : getSegment (buildMessage st) seg = (st.segments.getD seg []).take (st.used seg * 8) := by
    have words : st.usedWords.getD seg ((st.segments.getD seg []).length / 8) = st.used seg := by
      have recorded : seg < st.usedWords.length := valid.sizes ▸ present
      rw [MessageBuilder.used, List.getD_eq_getElem _ _ recorded,
        List.getD_eq_getElem _ _ recorded]
    have segment : st.segments[seg] = st.segments.getD seg [] :=
      (List.getD_eq_getElem _ _ present).symm
    rw [getSegment, buildMessage, List.getD_eq_getElem _ _ (by simpa using present),
      List.getElem_mapIdx, segment, words, Nat.min_eq_left inside]
  rw [readByte, kept, byteAt, List.getD_eq_getElem?_getD, List.getElem?_take_of_lt owned,
    ← List.getD_eq_getElem?_getD]

/-- The bytes written, as far as the segment reaches, and all others as before. -/
theorem byteAt_writeBytesAt (seg byteOff : Nat) (src : List UInt8) (st : MessageBuilder)
    (seg' k : Nat)
    : (writeBytesAt seg byteOff src st).byteAt seg' k
      = if (seg' = seg ∧ byteOff ≤ k ∧ k < byteOff + src.length)
            ∧ k < (st.segments.getD seg []).length then
          src.getD (k - byteOff) 0
        else st.byteAt seg' k :=
  byteAt_modifySegment ..

/-- Writing bytes keeps a builder valid. -/
theorem writeBytesAt_valid {st : MessageBuilder} (valid : st.Valid) (seg byteOff : Nat)
    (src : List UInt8) : (writeBytesAt seg byteOff src st).Valid :=
  modifySegment_valid valid ..

/-- Bytes written into the allocated part are read. -/
theorem readByte_writeBytesAt {st : MessageBuilder} (valid : st.Valid) {seg byteOff : Nat}
    {src : List UInt8} (owned : byteOff + src.length ≤ st.used seg * 8) {i : Nat}
    (inside : i < src.length)
    : readByte (buildMessage (writeBytesAt seg byteOff src st)) seg (byteOff + i)
      = src.getD i 0 := by
  have room := valid.inside seg
  rw [readByte_buildMessage (writeBytesAt_valid valid ..)]
  · rw [byteAt_writeBytesAt, if_pos ⟨⟨rfl, by omega, by omega⟩, by omega⟩,
      Nat.add_sub_cancel_left]
  · show byteOff + i < st.used seg * 8
    omega

/-- The bytes of a word put it together again, by induction on how many are taken. -/
theorem wordOfBytes_wordBytes (w : UInt64)
    : wordOfBytes (fun i => (wordBytes w).getD i 0) = w := by
  have low (n : Nat) (inWord : n ≤ 8)
      : ((List.range n).foldl
          (fun acc i => acc ||| shl64 ((wordBytes w).getD i 0).toUInt64 (8 * i)) 0).toNat
        = w.toNat % 2 ^ (8 * n) := by
    induction n with
    | zero => simp [Nat.mod_one]
    | succ n ih =>
        have byte : (wordBytes w).getD n 0 = (shr64 w (8 * n)).toUInt8 := by
          simp [wordBytes, show n < 8 by omega]
        have value : ((wordBytes w).getD n 0).toNat = w.toNat / 2 ^ (8 * n) % 2 ^ 8 := by
          have amount : (UInt64.ofNat (8 * n)).toNat % 64 = 8 * n := by
            rw [UInt64.toNat_ofNat_of_lt' (by omega : 8 * n < 2 ^ 64)]
            omega
          rw [byte, UInt64.toNat_toUInt8, shr64, UInt64.toNat_shiftRight, amount,
            Nat.shiftRight_eq_div_pow]
        rw [List.range_succ, List.foldl_append, List.foldl_cons, List.foldl_nil, UInt64.toNat_or,
          ih (by omega), toNat_shl64_byte _ (by omega), value, Nat.or_comm, ← Nat.shiftLeft_eq,
          ← Nat.shiftLeft_add_eq_or_of_lt (Nat.mod_lt _ (Nat.two_pow_pos _)), Nat.shiftLeft_eq]
        have digits : 2 ^ (8 * (n + 1)) = 2 ^ (8 * n) * 2 ^ 8 := by
          rw [← Nat.pow_add, Nat.mul_succ]
        rw [digits, Nat.mod_mul, Nat.mul_comm, Nat.add_comm]
  rw [← UInt64.toNat_inj, wordOfBytes, low 8 (Nat.le_refl 8), Nat.mod_eq_of_lt w.toNat_lt]

/-- A byte that is written is read. -/
theorem readByte_writeByte {st : MessageBuilder} (valid : st.Valid) {seg byteOff : Nat}
    (owned : byteOff + 1 ≤ st.used seg * 8) (byte : UInt8)
    : readByte (buildMessage (writeByte seg byteOff byte st)) seg byteOff = byte :=
  readByte_writeBytesAt (i := 0) valid owned Nat.one_pos

/-- The bit test of the source is the one of numbers. -/
theorem getBit_byte (byte : UInt8) {i : Nat} (inByte : i < 8)
    : (shr64 byte.toUInt64 i &&& 1 == 1) = byte.toNat.testBit i := by
  have amount : (UInt64.ofNat i).toNat % 64 = i := by
    rw [UInt64.toNat_ofNat_of_lt' (by omega : i < 2 ^ 64)]
    omega
  have low : (shr64 byte.toUInt64 i &&& 1).toNat = byte.toNat / 2 ^ i % 2 := by
    rw [UInt64.toNat_and, shr64, UInt64.toNat_shiftRight, amount, UInt8.toNat_toUInt64,
      Nat.shiftRight_eq_div_pow]
    exact Nat.and_one_is_mod _
  rw [Bool.eq_iff_iff, beq_iff_eq, ← UInt64.toNat_inj, low, Nat.testBit_eq_decide_div_mod_eq,
    decide_eq_true_iff]
  rfl

/-- The mask of a bit within a byte. -/
theorem toNat_bit {i : Nat} (inByte : i < 8) : (shl64 1 i).toUInt8.toNat = 2 ^ i := by
  have amount : (UInt64.ofNat i).toNat % 64 = i := by
    rw [UInt64.toNat_ofNat_of_lt' (by omega : i < 2 ^ 64)]
    omega
  have small : 2 ^ i < 2 ^ 8 := Nat.pow_lt_pow_right (by omega) inByte
  rw [UInt64.toNat_toUInt8, shl64, UInt64.toNat_shiftLeft, amount, UInt64.toNat_one,
    Nat.one_shiftLeft, Nat.mod_eq_of_lt (Nat.lt_trans small (by decide)), Nat.mod_eq_of_lt small]

/-- A bit that is set or cleared is read. -/
theorem testBit_set_bit (byte : UInt8) (value : Bool) {i : Nat} (inByte : i < 8)
    : (if value then byte ||| (shl64 1 i).toUInt8
        else byte &&& ~~~(shl64 1 i).toUInt8).toNat.testBit i = value := by
  have bit := toNat_bit inByte
  have small : 2 ^ i < 2 ^ 8 := Nat.pow_lt_pow_right (by omega) inByte
  cases value with
  | true => simp [bit]
  | false =>
      have complement : (~~~(shl64 1 i).toUInt8).toNat = 2 ^ 8 - (2 ^ i + 1) := by
        rw [UInt8.toNat_not, bit, UInt8.size]
        omega
      show (byte &&& ~~~(shl64 1 i).toUInt8).toNat.testBit i = false
      rw [UInt8.toNat_and, complement, Nat.testBit_and, Nat.testBit_two_pow_sub_succ small,
        Nat.testBit_two_pow_self, Bool.not_true, Bool.and_false, Bool.and_false]

/-- A word by its eight bytes. -/
theorem wordOfBytes_congr {byte byte' : Nat → UInt8} (same : ∀ i < 8, byte i = byte' i)
    : wordOfBytes byte = wordOfBytes byte' := by
  apply List.foldl_ext
  intro acc i inWord
  rw [same i (List.mem_range.mp inWord)]

section SetThenGet

variable {st : MessageBuilder} {b : StructBuilder} {offset : Nat}

/-- A boolean that is set is read. -/
theorem getBool_setBool (valid : st.Valid)
    (owned : b.dataOff * 64 + offset + 1 ≤ st.used b.seg * 64) (v : Bool)
    : getBool (b.reader (setBool b offset v st)) offset = v := by
  have inByte : (b.dataOff * 64 + offset) % 8 < 8 := Nat.mod_lt _ (by omega)
  let old := getByteB b.seg ((b.dataOff * 64 + offset) / 8) st
  let mask := (shl64 1 ((b.dataOff * 64 + offset) % 8)).toUInt8
  let written := if v then old ||| mask else old &&& ~~~mask
  have byte
      : readByte (buildMessage (setBool b offset v st)) b.seg ((b.dataOff * 64 + offset) / 8)
        = written :=
    readByte_writeByte valid (by omega) written
  show (shr64 (readByte (buildMessage (setBool b offset v st)) b.seg
    ((b.dataOff * 64 + offset) / 8)).toUInt64 ((b.dataOff * 64 + offset) % 8) &&& 1 == 1) = v
  rw [byte, getBit_byte _ inByte]
  exact testBit_set_bit old v inByte

/-- A byte that is set is read. -/
theorem getUInt8_setUInt8 (valid : st.Valid)
    (owned : b.dataOff * 8 + offset + 1 ≤ st.used b.seg * 8)
    (v : UInt8) : getUInt8 (b.reader (setUInt8 b offset v st)) offset = v :=
  readByte_writeByte valid owned v

/-- Two bytes that are set are read. -/
theorem getUInt16_setUInt16 (valid : st.Valid)
    (owned : b.dataOff * 8 + offset + 2 ≤ st.used b.seg * 8) (v : UInt16)
    : getUInt16 (b.reader (setUInt16 b offset v st)) offset = v := by
  have byte (i : Nat) (inside : i < 2)
      : readByte (buildMessage (setUInt16 b offset v st)) b.seg (b.dataOff * 8 + offset + i)
        = (uint16Le v).getD i 0 :=
    readByte_writeBytesAt valid owned inside
  show ofUint16Le (readByte _ _ (b.dataOff * 8 + offset + 0))
    (readByte _ _ (b.dataOff * 8 + offset + 1)) = v
  rw [StructBuilder.reader, byte 0 (by omega), byte 1 (by omega)]
  exact ofUint16Le_uint16Le v

/-- Four bytes that are set are read. -/
theorem getUInt32_setUInt32 (valid : st.Valid)
    (owned : b.dataOff * 8 + offset + 4 ≤ st.used b.seg * 8) (v : UInt32)
    : getUInt32 (b.reader (setUInt32 b offset v st)) offset = v := by
  have byte (i : Nat) (inside : i < 4)
      : readByte (buildMessage (setUInt32 b offset v st)) b.seg (b.dataOff * 8 + offset + i)
        = (uint32Le v).getD i 0 :=
    readByte_writeBytesAt valid owned inside
  show ofUint32Le (readByte _ _ (b.dataOff * 8 + offset + 0))
    (readByte _ _ (b.dataOff * 8 + offset + 1)) (readByte _ _ (b.dataOff * 8 + offset + 2))
    (readByte _ _ (b.dataOff * 8 + offset + 3)) = v
  rw [StructBuilder.reader, byte 0 (by omega), byte 1 (by omega), byte 2 (by omega),
    byte 3 (by omega)]
  exact ofUint32Le_uint32Le v

/-- Eight bytes that are set are read. -/
theorem getUInt64_setUInt64 (valid : st.Valid)
    (owned : b.dataOff * 8 + offset + 8 ≤ st.used b.seg * 8) (v : UInt64)
    : getUInt64 (b.reader (setUInt64 b offset v st)) offset = v := by
  have byte (i : Nat) (inside : i < 8)
      : readByte (buildMessage (setUInt64 b offset v st)) b.seg (b.dataOff * 8 + offset + i)
        = (wordBytes v).getD i 0 :=
    readByte_writeBytesAt valid owned inside
  exact (wordOfBytes_congr byte).trans (wordOfBytes_wordBytes v)

end SetThenGet

namespace Scalar

variable {st : MessageBuilder} {b : StructBuilder} {offset : Nat}

/-- The bytes that hold so many bits. -/
def bytes (s : Scalar) : Nat :=
  (s.width + 7) / 8

/-- A setter writes the bytes that hold the bits. -/
theorem exists_write_eq (s : Scalar) (b : StructBuilder) (offset : Nat) (bits : BitVec s.width)
    (st : MessageBuilder)
    : ∃ src : List UInt8, src.length = s.bytes
      ∧ s.write b offset bits st
        = writeBytesAt b.seg (b.dataOff * 8 + s.bitOffset offset / 8) src st := by
  have bit : (b.dataOff * 64 + offset) / 8 = b.dataOff * 8 + offset / 8 := by omega
  have byte : b.dataOff * 8 + offset = b.dataOff * 8 + 8 * offset / 8 := by omega
  cases s with
  | bool => exact ⟨[_], rfl, congrArg (fun place => writeByte b.seg place _ st) bit⟩
  | int8 | uint8 => exact ⟨[_], rfl, congrArg (fun place => writeByte b.seg place _ st) byte⟩
  | int16 | uint16 =>
      refine ⟨uint16Le _, ?_, congrArg (fun place => writeUInt16LE b.seg place _ st) byte⟩
      simp [bytes, width]
  | int32 | uint32 | float32 =>
      refine ⟨uint32Le _, ?_, congrArg (fun place => writeUInt32LE b.seg place _ st) byte⟩
      simp [bytes, width]
  | int64 | uint64 | float64 =>
      refine ⟨wordBytes _, ?_, congrArg (fun place => writeUInt64LE b.seg place _ st) byte⟩
      simp [wordBytes, bytes, width]

/-- Bits written into the allocated part are read. -/
theorem read_write (s : Scalar) (valid : st.Valid)
    (owned : 64 * b.dataOff + s.bitOffset offset + s.width ≤ 64 * st.used b.seg)
    (bits : BitVec s.width)
    : s.read (b.reader (s.write b offset bits st)) offset = bits := by
  cases s with
  | bool =>
      have back (bits : BitVec 1) : BitVec.ofBool (bits == 1#1) = bits := by
        revert bits
        decide
      have owned : b.dataOff * 64 + offset + 1 ≤ st.used b.seg * 64 := by
        simpa only [bitOffset, width, Nat.mul_comm 64] using owned
      exact (congrArg BitVec.ofBool (getBool_setBool valid owned _)).trans (back bits)
  | int8 | uint8 =>
      have owned : b.dataOff * 8 + offset + 1 ≤ st.used b.seg * 8 := by
        simp only [bitOffset, width] at owned
        omega
      exact congrArg UInt8.toBitVec (getUInt8_setUInt8 valid owned (.ofBitVec bits))
  | int16 | uint16 =>
      have owned : b.dataOff * 8 + offset + 2 ≤ st.used b.seg * 8 := by
        simp only [bitOffset, width] at owned
        omega
      exact congrArg UInt16.toBitVec (getUInt16_setUInt16 valid owned (.ofBitVec bits))
  | int32 | uint32 | float32 =>
      have owned : b.dataOff * 8 + offset + 4 ≤ st.used b.seg * 8 := by
        simp only [bitOffset, width] at owned
        omega
      exact congrArg UInt32.toBitVec (getUInt32_setUInt32 valid owned (.ofBitVec bits))
  | int64 | uint64 | float64 =>
      have owned : b.dataOff * 8 + offset + 8 ≤ st.used b.seg * 8 := by
        simp only [bitOffset, width] at owned
        omega
      exact congrArg UInt64.toBitVec (getUInt64_setUInt64 valid owned (.ofBitVec bits))

/-- Zero bytes read as zero bits. -/
theorem read_eq_zero (s : Scalar) {r : StructReader} {offset : Nat}
    (zero
      : ∀ k, s.bitOffset offset < 8 * k + 8 → 8 * k < s.bitOffset offset + s.width →
          readByte r.msg r.seg (r.dataOff * 8 + k) = 0)
    : s.read r offset = 0#s.width := by
  have byte (i : Nat) (inside : 8 * offset = s.bitOffset offset ∧ 8 * i < s.width)
      : readByte r.msg r.seg (r.dataOff * 8 + offset + i) = 0 := by
    rw [Nat.add_assoc]
    exact zero (offset + i) (by omega) (by omega)
  cases s with
  | bool =>
      have place : (r.dataOff * 64 + offset) / 8 = r.dataOff * 8 + offset / 8 := by omega
      have byte := zero (offset / 8) (by simp only [bitOffset]; omega)
        (by simp only [bitOffset, width]; omega)
      have clear : getBool r offset = false := by simp [getBool, getBit, place, byte, shr64]
      exact congrArg BitVec.ofBool clear
  | int8 | uint8 => exact congrArg UInt8.toBitVec (byte 0 ⟨rfl, by decide⟩)
  | int16 | uint16 =>
      have clear : getUInt16 r offset = 0 := by
        show ofUint16Le (readByte _ _ (r.dataOff * 8 + offset + 0))
          (readByte _ _ (r.dataOff * 8 + offset + 1)) = 0
        rw [byte 0 ⟨rfl, by decide⟩, byte 1 ⟨rfl, by decide⟩]
        rfl
      exact congrArg UInt16.toBitVec clear
  | int32 | uint32 | float32 =>
      have clear : getUInt32 r offset = 0 := by
        show ofUint32Le (readByte _ _ (r.dataOff * 8 + offset + 0))
          (readByte _ _ (r.dataOff * 8 + offset + 1)) (readByte _ _ (r.dataOff * 8 + offset + 2))
          (readByte _ _ (r.dataOff * 8 + offset + 3)) = 0
        rw [byte 0 ⟨rfl, by decide⟩, byte 1 ⟨rfl, by decide⟩, byte 2 ⟨rfl, by decide⟩,
          byte 3 ⟨rfl, by decide⟩]
        rfl
      exact congrArg UInt32.toBitVec clear
  | int64 | uint64 | float64 =>
      have clear : getUInt64 r offset = 0 := by
        rw [getUInt64, readUInt64, wordOfBytes_eq_zero_iff]
        exact fun i inWord => byte i ⟨rfl, by simp only [width]; omega⟩
      exact congrArg UInt64.toBitVec clear

end Scalar

end Capnp
