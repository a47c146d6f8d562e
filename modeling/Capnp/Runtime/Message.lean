import Mathlib.Algebra.Group.Nat.Defs
import Mathlib.Data.List.Basic

/-! Messages as lists of segments, and the raw reads from them. A segment is the bytes that
its view covers; a read past its end gives zero.
-/

namespace Capnp

/-- A message by the bytes of its segments. -/
structure Message where
  segments : List (List UInt8)
deriving DecidableEq

/-- Where a pointer is in a message. -/
structure AnyPointer where
  msg : Message
  seg : Nat
  word : Nat
deriving DecidableEq

def getRoot (msg : Message) : AnyPointer where
  msg := msg
  seg := 0
  word := 0

def getSegment (msg : Message) (seg : Nat) : List UInt8 :=
  msg.segments.getD seg []

def readByte (msg : Message) (seg byteOff : Nat) : UInt8 :=
  (getSegment msg seg).getD byteOff 0

def readBytes (msg : Message) (seg byteOff count : Nat) : List UInt8 :=
  (List.range count).map (fun i => readByte msg seg (byteOff + i))

def shl64 (x : UInt64) (n : Nat) : UInt64 :=
  x <<< UInt64.ofNat n

def shr64 (x : UInt64) (n : Nat) : UInt64 :=
  x >>> UInt64.ofNat n

/-- The loop that puts eight bytes together, the lowest first. -/
def wordOfBytes (byte : Nat → UInt8) : UInt64 :=
  (List.range 8).foldl (fun acc i => acc ||| shl64 (byte i).toUInt64 (8 * i)) 0

def readWord (msg : Message) (seg wordOff : Nat) : UInt64 :=
  wordOfBytes (fun i => readByte msg seg (wordOff * 8 + i))

def segmentWordCount (msg : Message) (seg : Nat) : Nat :=
  (getSegment msg seg).length / 8

def readWordChecked (msg : Message) (seg wordOff : Nat) : Except String UInt64 :=
  if seg ≥ msg.segments.length then .error "segment out of bounds"
  else if wordOff * 8 + 8 ≤ (getSegment msg seg).length then .ok (readWord msg seg wordOff)
  else .error "word out of bounds"

def readUInt16 (msg : Message) (seg byteOff : Nat) : UInt16 :=
  let b0 := (readByte msg seg byteOff).toUInt16
  let b1 := (readByte msg seg (byteOff + 1)).toUInt16 <<< 8
  b0 ||| b1

def readUInt32 (msg : Message) (seg byteOff : Nat) : UInt32 :=
  let b0 := (readByte msg seg byteOff).toUInt32
  let b1 := (readByte msg seg (byteOff + 1)).toUInt32 <<< 8
  let b2 := (readByte msg seg (byteOff + 2)).toUInt32 <<< 16
  let b3 := (readByte msg seg (byteOff + 3)).toUInt32 <<< 24
  b0 ||| b1 ||| b2 ||| b3

def readUInt64 (msg : Message) (seg byteOff : Nat) : UInt64 :=
  wordOfBytes (fun i => readByte msg seg (byteOff + i))

def getBit (msg : Message) (seg bitOff : Nat) : Bool :=
  shr64 (readByte msg seg (bitOff / 8)).toUInt64 (bitOff % 8) &&& 1 == 1

/-- The value of the low `bits` bits as a signed number. -/
def signExtend (bits : Nat) (x : UInt64) : Int :=
  if bits = 0 then 0
  else
    let mask : UInt64 := shl64 1 bits - 1
    let v := x &&& mask
    let signBit : UInt64 := shl64 1 (bits - 1)
    if v &&& signBit != 0 then Int.ofNat v.toNat - Int.ofNat (shl64 1 bits).toNat
    else Int.ofNat v.toNat

/-- A shifted byte keeps its bits within a word. -/
theorem toNat_shl64_byte (byte : UInt8) {i : Nat} (inWord : i < 8)
    : (shl64 byte.toUInt64 (8 * i)).toNat = byte.toNat * 2 ^ (8 * i) := by
  have small : byte.toNat < 2 ^ 8 := byte.toNat_lt
  have fits : byte.toNat * 2 ^ (8 * i) < 2 ^ 64 := by
    calc
      byte.toNat * 2 ^ (8 * i) < 2 ^ 8 * 2 ^ (8 * i) :=
        Nat.mul_lt_mul_of_pos_right small (Nat.two_pow_pos _)
      _ = 2 ^ (8 + 8 * i) := (Nat.pow_add ..).symm
      _ ≤ 2 ^ 64 := Nat.pow_le_pow_right (by omega) (by omega)
  have amount : (UInt64.ofNat (8 * i)).toNat % 64 = 8 * i := by
    rw [UInt64.toNat_ofNat_of_lt' (by omega : 8 * i < 2 ^ 64)]
    omega
  rw [shl64, UInt64.toNat_shiftLeft, amount, UInt8.toNat_toUInt64, Nat.shiftLeft_eq,
    Nat.mod_eq_of_lt fits]

/-- A byte that is shifted within a word stays zero or not zero. -/
theorem shl64_byte_eq_zero_iff (byte : UInt8) {i : Nat} (inWord : i < 8)
    : shl64 byte.toUInt64 (8 * i) = 0 ↔ byte = 0 := by
  rw [← UInt64.toNat_inj, toNat_shl64_byte byte inWord, ← UInt8.toNat_inj]
  have positive := Nat.two_pow_pos (8 * i)
  simp only [UInt64.toNat_zero, UInt8.toNat_zero, Nat.mul_eq_zero]
  omega

/-- A word is zero exactly when its bytes are. -/
theorem wordOfBytes_eq_zero_iff (byte : Nat → UInt8)
    : wordOfBytes byte = 0 ↔ ∀ i < 8, byte i = 0 := by
  have fold (indices : List Nat) (acc : UInt64)
      : indices.foldl (fun acc i => acc ||| shl64 (byte i).toUInt64 (8 * i)) acc = 0
        ↔ acc = 0 ∧ ∀ i ∈ indices, shl64 (byte i).toUInt64 (8 * i) = 0 := by
    induction indices generalizing acc with
    | nil => simp
    | cons first rest ih => simp [ih, UInt64.or_eq_zero_iff, and_assoc]
  rw [wordOfBytes, fold]
  simp only [List.mem_range, true_and]
  exact forall₂_congr (fun i inWord => shl64_byte_eq_zero_iff (byte i) inWord)

end Capnp
