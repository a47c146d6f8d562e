import Capnp.Runtime.Scalars

/-! The generated accessors of the fields in the data section. Three switches over the types
emit the getter, the checked getter and the setter of a field, each with an offset and a mask
of its own.
-/

namespace Capnp.Plugin

-----------------------------------------------------------------------------------------
-- The schema
-----------------------------------------------------------------------------------------

/-- The types of the data section. -/
inductive SlotType where
  | void
  | scalar (s : Scalar)
  | enum (enumerants : Nat)

/-- The type that is generated for an enum. -/
inductive EnumValue (enumerants : Nat) where
  | enumerant (ordinal : UInt16) (declared : ordinal.toNat < enumerants)
  | unknown (value : UInt16)
deriving DecidableEq

namespace EnumValue

variable {enumerants : Nat}

def toUInt16 : EnumValue enumerants → UInt16
  | enumerant ordinal _ => ordinal
  | unknown v => v

def ofUInt16 (v : UInt16) : EnumValue enumerants :=
  if declared : v.toNat < enumerants then enumerant v declared else unknown v

end EnumValue

/-- Defaults as the schema has them, those of floats by their bit patterns. -/
def ScalarDefault : Scalar → Type
  | .float32 => UInt32
  | .float64 => UInt64
  | s => s.Value

namespace SlotType

def width : SlotType → Nat
  | void => 0
  | scalar s => s.width
  | enum _ => 16

def Value : SlotType → Type
  | void => Unit
  | scalar s => s.Value
  | enum enumerants => EnumValue enumerants

def Default : SlotType → Type
  | void => Unit
  | scalar s => ScalarDefault s
  | enum _ => UInt16

end SlotType

/-- The write of a discriminant that a setter of a union member starts with. -/
structure DiscriminantWrite where
  byteOffset : Nat
  value : UInt16

/-- A slot of a struct, counted in units of its own width, inside the data section. -/
structure SlotField where
  dataWordCount : UInt16
  type : SlotType
  offset : UInt32
  defaultValue : type.Default
  discriminant : Option DiscriminantWrite
  inside : (offset.toNat + 1) * type.width ≤ 64 * dataWordCount.toNat

-----------------------------------------------------------------------------------------
-- Emitted expressions
-----------------------------------------------------------------------------------------

/-- The literals of a call of an accessor: `Capnp.getInt16 _ 6` or
`Capnp.getInt16Masked _ 6 (UInt16.ofNat 5)`.
-/
structure Access (s : Scalar) where
  offset : Nat
  mask : Option (BitVec s.width)

/-- The masked accessor is emitted after a test of the default. -/
def Access.emit {s : Scalar} (nonzero : Bool) (offset : UInt32) (mask : Nat) : Access s where
  offset := offset.toNat
  mask := if nonzero then some (BitVec.ofNat s.width mask) else none

/-- The bits that a call addresses, and those that it masks them with. -/
structure Place where
  bitOffset : Nat
  width : Nat
  mask : Nat
deriving DecidableEq

def Access.place {s : Scalar} (access : Access s) : Place where
  bitOffset := s.bitOffset access.offset
  width := s.width
  mask := (access.mask.getD 0#s.width).toNat

/-- What an accessor calls. -/
inductive GetExpr : SlotType → Type where
  | unit : GetExpr .void
  | get {s : Scalar} (access : Access s) : GetExpr (.scalar s)
  | ofUInt16 {enumerants : Nat} (access : Access .uint16) : GetExpr (.enum enumerants)

namespace GetExpr

def eval {type : SlotType} (e : GetExpr type) (r : StructReader) : type.Value :=
  match e with
  | unit => ()
  | get (s := s) access => s.get r access.offset access.mask
  | ofUInt16 access => EnumValue.ofUInt16 (Scalar.get .uint16 r access.offset access.mask)

def place {type : SlotType} : GetExpr type → Option Place
  | unit => none
  | get access => some access.place
  | ofUInt16 access => some access.place

end GetExpr

/-- `pure` of a getter's expression. -/
structure CheckedExpr (type : SlotType) where
  pure ::
  value : GetExpr type

def CheckedExpr.eval {type : SlotType} (e : CheckedExpr type) (r : StructReader)
    : Except String type.Value :=
  .ok (e.value.eval r)

/-- What a setter calls. -/
inductive SetExpr : SlotType → Type where
  | pure : SetExpr .void
  | set {s : Scalar} (access : Access s) : SetExpr (.scalar s)
  | toUInt16 {enumerants : Nat} (access : Access .uint16) : SetExpr (.enum enumerants)

namespace SetExpr

def run {type : SlotType} (e : SetExpr type) (b : StructBuilder) (v : type.Value)
    : MessageBuilder → MessageBuilder :=
  match e with
  | pure => id
  | set (s := s) access => s.set b access.offset access.mask v
  | toUInt16 access => Scalar.set .uint16 b access.offset access.mask (EnumValue.toUInt16 v)

def place {type : SlotType} : SetExpr type → Option Place
  | pure => none
  | set access => some access.place
  | toUInt16 access => some access.place

end SetExpr

/-- The body of a setter. -/
structure Setter (type : SlotType) where
  discriminant : Option DiscriminantWrite
  value : SetExpr type

def DiscriminantWrite.run (discriminant : DiscriminantWrite) (b : StructBuilder)
    : MessageBuilder → MessageBuilder :=
  setUInt16 b discriminant.byteOffset discriminant.value

def Setter.run {type : SlotType} (setter : Setter type) (b : StructBuilder) (v : type.Value)
    (st : MessageBuilder) : MessageBuilder :=
  let st :=
    match setter.discriminant with
    | none => st
    | some discriminant => discriminant.run b st
  setter.value.run b v st

-----------------------------------------------------------------------------------------
-- The generator
-----------------------------------------------------------------------------------------

/-- Comparisons of floats with zero, which also equals the negative zero but no NaN. -/
def float32Nonzero (d : UInt32) : Bool := d &&& 0x7fffffff != 0

def float64Nonzero (d : UInt64) : Bool := d &&& 0x7fffffffffffffff != 0

def genFieldAccessor (type : SlotType) (offset : UInt32) (defaultValue : type.Default)
    : GetExpr type :=
  match type, defaultValue with
  | .void, _ => .unit
  | .scalar .bool, (d : Bool) => .get (.emit d offset 1)
  | .scalar .int8, (d : Int8) => .get (.emit (d != 0) offset d.toUInt8.toNat)
  | .scalar .uint8, (d : UInt8) => .get (.emit (d != 0) offset d.toNat)
  | .scalar .int16, (d : Int16) => .get (.emit (d != 0) (offset * 2) d.toUInt16.toNat)
  | .scalar .uint16, (d : UInt16) => .get (.emit (d != 0) (offset * 2) d.toNat)
  | .scalar .int32, (d : Int32) => .get (.emit (d != 0) (offset * 4) d.toUInt32.toNat)
  | .scalar .uint32, (d : UInt32) => .get (.emit (d != 0) (offset * 4) d.toNat)
  | .scalar .int64, (d : Int64) => .get (.emit (d != 0) (offset * 8) d.toUInt64.toNat)
  | .scalar .uint64, (d : UInt64) => .get (.emit (d != 0) (offset * 8) d.toNat)
  | .scalar .float32, (d : UInt32) => .get (.emit (float32Nonzero d) (offset * 4) d.toNat)
  | .scalar .float64, (d : UInt64) => .get (.emit (float64Nonzero d) (offset * 8) d.toNat)
  | .enum _, (d : UInt16) => .ofUInt16 (.emit (d != 0) (offset * 2) d.toNat)

def genFieldAccessorChecked (type : SlotType) (offset : UInt32) (defaultValue : type.Default)
    : CheckedExpr type :=
  match type, defaultValue with
  | .void, _ => .pure .unit
  | .scalar .bool, (d : Bool) => .pure (.get (.emit d offset 1))
  | .scalar .int8, (d : Int8) => .pure (.get (.emit (d != 0) offset d.toUInt8.toNat))
  | .scalar .uint8, (d : UInt8) => .pure (.get (.emit (d != 0) offset d.toNat))
  | .scalar .int16, (d : Int16) => .pure (.get (.emit (d != 0) (offset * 2) d.toUInt16.toNat))
  | .scalar .uint16, (d : UInt16) => .pure (.get (.emit (d != 0) (offset * 2) d.toNat))
  | .scalar .int32, (d : Int32) => .pure (.get (.emit (d != 0) (offset * 4) d.toUInt32.toNat))
  | .scalar .uint32, (d : UInt32) => .pure (.get (.emit (d != 0) (offset * 4) d.toNat))
  | .scalar .int64, (d : Int64) => .pure (.get (.emit (d != 0) (offset * 8) d.toUInt64.toNat))
  | .scalar .uint64, (d : UInt64) => .pure (.get (.emit (d != 0) (offset * 8) d.toNat))
  | .scalar .float32, (d : UInt32) =>
      .pure (.get (.emit (float32Nonzero d) (offset * 4) d.toNat))
  | .scalar .float64, (d : UInt64) =>
      .pure (.get (.emit (float64Nonzero d) (offset * 8) d.toNat))
  | .enum _, (d : UInt16) => .pure (.ofUInt16 (.emit (d != 0) (offset * 2) d.toNat))

/-- The branch of `genStruct` for a field of the data section. -/
def genSetter (type : SlotType) (offset : UInt32) (defaultValue : type.Default)
    (discriminant : Option DiscriminantWrite) : Setter type :=
  match type, defaultValue with
  | .void, _ => ⟨discriminant, .pure⟩
  | .scalar .bool, (d : Bool) => ⟨discriminant, .set (.emit d offset 1)⟩
  | .scalar .int8, (d : Int8) => ⟨discriminant, .set (.emit (d != 0) offset d.toUInt8.toNat)⟩
  | .scalar .uint8, (d : UInt8) => ⟨discriminant, .set (.emit (d != 0) offset d.toNat)⟩
  | .scalar .int16, (d : Int16) =>
      ⟨discriminant, .set (.emit (d != 0) (offset * 2) d.toUInt16.toNat)⟩
  | .scalar .uint16, (d : UInt16) => ⟨discriminant, .set (.emit (d != 0) (offset * 2) d.toNat)⟩
  | .scalar .int32, (d : Int32) =>
      ⟨discriminant, .set (.emit (d != 0) (offset * 4) d.toUInt32.toNat)⟩
  | .scalar .uint32, (d : UInt32) => ⟨discriminant, .set (.emit (d != 0) (offset * 4) d.toNat)⟩
  | .scalar .int64, (d : Int64) =>
      ⟨discriminant, .set (.emit (d != 0) (offset * 8) d.toUInt64.toNat)⟩
  | .scalar .uint64, (d : UInt64) => ⟨discriminant, .set (.emit (d != 0) (offset * 8) d.toNat)⟩
  | .scalar .float32, (d : UInt32) =>
      ⟨discriminant, .set (.emit (float32Nonzero d) (offset * 4) d.toNat)⟩
  | .scalar .float64, (d : UInt64) =>
      ⟨discriminant, .set (.emit (float64Nonzero d) (offset * 8) d.toNat)⟩
  | .enum _, (d : UInt16) => ⟨discriminant, .toUInt16 (.emit (d != 0) (offset * 2) d.toNat)⟩

namespace SlotField

variable (f : SlotField)

def getter : GetExpr f.type :=
  genFieldAccessor f.type f.offset f.defaultValue

def checkedGetter : CheckedExpr f.type :=
  genFieldAccessorChecked f.type f.offset f.defaultValue

def setter : Setter f.type :=
  genSetter f.type f.offset f.defaultValue f.discriminant

end SlotField

-----------------------------------------------------------------------------------------
-- Agreement
-----------------------------------------------------------------------------------------

namespace ScalarDefault

/-- The bit pattern of a default. -/
def bits (s : Scalar) (d : ScalarDefault s) : BitVec s.width :=
  match s, d with
  | .bool, (d : Bool) => BitVec.ofBool d
  | .int8, (d : Int8) => d.toBitVec
  | .uint8, (d : UInt8) => d.toBitVec
  | .int16, (d : Int16) => d.toBitVec
  | .uint16, (d : UInt16) => d.toBitVec
  | .int32, (d : Int32) => d.toBitVec
  | .uint32, (d : UInt32) => d.toBitVec
  | .int64, (d : Int64) => d.toBitVec
  | .uint64, (d : UInt64) => d.toBitVec
  | .float32, (d : UInt32) => d.toBitVec
  | .float64, (d : UInt64) => d.toBitVec

/-- The default as a value of the generated type. -/
def value (s : Scalar) (d : ScalarDefault s) : s.Value :=
  match s, d with
  | .bool, d | .int8, d | .uint8, d | .int16, d | .uint16, d | .int32, d | .uint32, d
  | .int64, d | .uint64, d => d
  | .float32, (d : UInt32) => float32FromBits d
  | .float64, (d : UInt64) => Float.ofBits d

/-- Only the sign bit of the default is set, and it is a float. -/
def NegativeZero (s : Scalar) (d : ScalarDefault s) : Prop :=
  match s, d with
  | .float32, (d : UInt32) => d = 0x80000000
  | .float64, (d : UInt64) => d = 0x8000000000000000
  | _, _ => False

end ScalarDefault

namespace SlotField

variable (f : SlotField)

/-- The bits that the schema gives the field, and those of its default. -/
def place : Option Place :=
  match f.type, f.defaultValue with
  | .void, _ => none
  | .scalar s, d => some ⟨f.offset.toNat * s.width, s.width, (ScalarDefault.bits s d).toNat⟩
  | .enum _, (d : UInt16) => some ⟨f.offset.toNat * 16, 16, d.toNat⟩

def default : f.type.Value :=
  match f.type, f.defaultValue with
  | .void, _ => ()
  | .scalar s, d => ScalarDefault.value s d
  | .enum _, (d : UInt16) => EnumValue.ofUInt16 d

def NegativeZero : Prop :=
  match f.type, f.defaultValue with
  | .scalar s, d => ScalarDefault.NegativeZero s d
  | _, _ => False

end SlotField

/-- Some stored bits stand for the value: a number of a single precision field is one of single
precision, and an unknown enumerant is not declared.
-/
def SlotType.Represents (type : SlotType) (v : type.Value) : Prop :=
  match type, v with
  | .scalar .float32, (v : Float) => ∃ bits, float32FromBits bits = v
  | .enum enumerants, (v : EnumValue enumerants) =>
      ∀ code, v = .unknown code → enumerants ≤ code.toNat
  | _, _ => True

namespace SlotField

variable (f : SlotField)

/-- What the accessors of a field do together. -/
structure AccessorsAgree (v : f.type.Value) : Prop where
  getter : f.getter.place = f.place
  checkedGetter : f.checkedGetter.value.place = f.place
  setter : f.setter.value.place = f.place
  allZero
    : ∀ r : StructReader, f.dataWordCount.toNat ≤ r.dataWords →
        (∀ k < 8 * r.dataWords, readByte r.msg r.seg (r.dataOff * 8 + k) = 0) →
          f.getter.eval r = f.default ∧ f.checkedGetter.eval r = .ok f.default
  setThenGet
    : ∀ (st : MessageBuilder) (b : StructBuilder), st.Valid → b.Allocated st →
        f.dataWordCount.toNat ≤ b.dataWords →
          f.getter.eval (b.reader (f.setter.run b v st)) = v
          ∧ f.checkedGetter.eval (b.reader (f.setter.run b v st)) = .ok v

end SlotField

-----------------------------------------------------------------------------------------
-- The three switches are one
-----------------------------------------------------------------------------------------

/-- The offset as the accessors take it. -/
def scaledOffset (s : Scalar) (offset : UInt32) : UInt32 :=
  match s with
  | .bool | .int8 | .uint8 => offset
  | .int16 | .uint16 => offset * 2
  | .int32 | .uint32 | .float32 => offset * 4
  | .int64 | .uint64 | .float64 => offset * 8

/-- Offsets inside a data section do not wrap around. -/
theorem bitOffset_scaledOffset (s : Scalar) (offset : UInt32) {words : Nat}
    (small : words < 2 ^ 16) (inside : (offset.toNat + 1) * s.width ≤ 64 * words)
    : s.bitOffset (scaledOffset s offset).toNat = offset.toNat * s.width := by
  have two : (2 : UInt32).toNat = 2 := rfl
  have four : (4 : UInt32).toNat = 4 := rfl
  have eight : (8 : UInt32).toNat = 8 := rfl
  cases s <;>
    simp only [Scalar.width, Scalar.bitOffset, scaledOffset, UInt32.toNat_mul, two, four, eight]
      at inside ⊢ <;>
    omega

/-- Numbers without any bit but the highest. -/
theorem float32Nonzero_eq_false_iff (d : UInt32)
    : float32Nonzero d = false ↔ d = 0 ∨ d = 0x80000000 := by
  have low : (d &&& 0x7fffffff).toNat = d.toNat % 2 ^ 31 := by
    rw [UInt32.toNat_and]
    exact Nat.and_two_pow_sub_one_eq_mod _ 31
  have range := d.toNat_lt
  rw [float32Nonzero, bne_eq_false_iff_eq, ← UInt32.toNat_inj, ← UInt32.toNat_inj,
    ← UInt32.toNat_inj, low]
  show d.toNat % 2 ^ 31 = 0 ↔ d.toNat = 0 ∨ d.toNat = 2 ^ 31
  omega

/-- Both zeros count as zero. -/
theorem float64Nonzero_eq_false_iff (d : UInt64)
    : float64Nonzero d = false ↔ d = 0 ∨ d = 0x8000000000000000 := by
  have low : (d &&& 0x7fffffffffffffff).toNat = d.toNat % 2 ^ 63 := by
    rw [UInt64.toNat_and]
    exact Nat.and_two_pow_sub_one_eq_mod _ 63
  have range := d.toNat_lt
  rw [float64Nonzero, bne_eq_false_iff_eq, ← UInt64.toNat_inj, ← UInt64.toNat_inj,
    ← UInt64.toNat_inj, low]
  show d.toNat % 2 ^ 63 = 0 ↔ d.toNat = 0 ∨ d.toNat = 2 ^ 63
  omega

namespace ScalarDefault

variable (s : Scalar) (offset : UInt32) (d : ScalarDefault s)

/-- The test of the default. -/
def nonzero : Bool :=
  match s, d with
  | .bool, (d : Bool) => d
  | .int8, (d : Int8) => d != 0
  | .uint8, (d : UInt8) => d != 0
  | .int16, (d : Int16) => d != 0
  | .uint16, (d : UInt16) => d != 0
  | .int32, (d : Int32) => d != 0
  | .uint32, (d : UInt32) => d != 0
  | .int64, (d : Int64) => d != 0
  | .uint64, (d : UInt64) => d != 0
  | .float32, (d : UInt32) => float32Nonzero d
  | .float64, (d : UInt64) => float64Nonzero d

def access : Access s :=
  .emit (nonzero s d) (scaledOffset s offset) (bits s d).toNat

/-- The accessor of a scalar is one call. -/
theorem genFieldAccessor_scalar
    : genFieldAccessor (.scalar s) offset d = .get (access s offset d) := by
  cases s with
  | bool => cases d <;> rfl
  | _ => rfl

/-- The checked accessor makes the same call. -/
theorem genFieldAccessorChecked_scalar
    : genFieldAccessorChecked (.scalar s) offset d = .pure (.get (access s offset d)) := by
  cases s with
  | bool => cases d <;> rfl
  | _ => rfl

/-- The setter of a scalar is one call, behind that for the discriminant. -/
theorem genSetter_scalar (discriminant : Option DiscriminantWrite)
    : genSetter (.scalar s) offset d discriminant
      = ⟨discriminant, .set (access s offset d)⟩ := by
  cases s with
  | bool => cases d <;> rfl
  | _ => rfl

/-- No mask stands for zero bits. -/
theorem access_mask
    : (access s offset d).mask.getD 0#s.width = if nonzero s d then bits s d else 0#s.width := by
  show (if nonzero s d then some _ else none).getD _ = _
  split_ifs
  · exact BitVec.eq_of_toNat_eq (Nat.mod_eq_of_lt (bits s d).isLt)
  · rfl

variable {s d}

/-- A default that the test finds is no negative zero. -/
theorem not_negativeZero_of_nonzero (test : nonzero s d = true) : ¬ NegativeZero s d := by
  cases s with
  | float32 =>
      rintro (rfl : d = (0x80000000 : UInt32))
      exact absurd test (by decide)
  | float64 =>
      rintro (rfl : d = (0x8000000000000000 : UInt64))
      exact absurd test (by decide)
  | _ => exact id

/-- A default that passes for zero has zero bits, unless it is the negative zero. -/
theorem zero_eq_bits_iff (test : nonzero s d = false)
    : 0#s.width = bits s d ↔ ¬ NegativeZero s d := by
  cases s with
  | bool =>
      obtain rfl : d = false := test
      exact iff_of_true rfl id
  | float32 =>
      rcases (float32Nonzero_eq_false_iff d).mp test with rfl | rfl
      · exact iff_of_true rfl (fun same => absurd same (by decide : (0 : UInt32) ≠ 0x80000000))
      · exact iff_of_false (by decide) (not_not_intro rfl)
  | float64 =>
      rcases (float64Nonzero_eq_false_iff d).mp test with rfl | rfl
      · exact iff_of_true rfl
          (fun same => absurd same (by decide : (0 : UInt64) ≠ 0x8000000000000000))
      · exact iff_of_false (by decide) (not_not_intro rfl)
  | _ =>
      obtain rfl := bne_eq_false_iff_eq.mp test
      exact iff_of_true rfl id

/-- The mask is the bits of the default, except for a negative zero. -/
theorem access_mask_eq_bits_iff
    : (access s offset d).mask.getD 0#s.width = bits s d ↔ ¬ NegativeZero s d := by
  rw [access_mask]
  cases test : nonzero s d with
  | true => exact iff_of_true rfl (not_negativeZero_of_nonzero test)
  | false => exact zero_eq_bits_iff test

/-- A call addresses the bits of its field, with the bits of the default. -/
theorem access_place_iff {words : UInt16}
    (inside : (offset.toNat + 1) * s.width ≤ 64 * words.toNat)
    : (access s offset d).place = ⟨offset.toNat * s.width, s.width, (bits s d).toNat⟩
      ↔ ¬ NegativeZero s d := by
  have position : s.bitOffset (access s offset d).offset = offset.toNat * s.width :=
    bitOffset_scaledOffset s offset words.toNat_lt inside
  rw [← access_mask_eq_bits_iff offset, Access.place, position, Place.mk.injEq, BitVec.toNat_inj]
  exact ⟨fun same => same.2.2, fun same => ⟨rfl, rfl, same⟩⟩

/-- The bits of a default stand for it. -/
theorem ofBits_bits (s : Scalar) (d : ScalarDefault s) : s.ofBits (bits s d) = value s d := by
  cases s with
  | bool => exact Scalar.ofBool_beq_one d
  | int8 => exact int8FromBits_toUInt8 d
  | int16 => exact int16FromBits_toUInt16 d
  | int32 => exact int32FromBits_toUInt32 d
  | int64 => exact int64FromBits_toUInt64 d
  | uint8 | uint16 | uint32 | uint64 | float32 | float64 => rfl

/-- A struct of zeros reads as the default, except for a negative zero. -/
theorem get_allZero {words : UInt16} (inside : (offset.toNat + 1) * s.width ≤ 64 * words.toNat)
    (nonnegative : ¬ NegativeZero s d) {r : StructReader} (large : words.toNat ≤ r.dataWords)
    (zero : ∀ k < 8 * r.dataWords, readByte r.msg r.seg (r.dataOff * 8 + k) = 0)
    : s.get r (access s offset d).offset (access s offset d).mask = value s d := by
  have position : s.bitOffset (access s offset d).offset = offset.toNat * s.width :=
    bitOffset_scaledOffset s offset words.toNat_lt inside
  rw [Nat.succ_mul] at inside
  have clear : s.read r (access s offset d).offset = 0#s.width :=
    s.read_eq_zero (fun k _ covered => zero k (by omega))
  rw [Scalar.get_eq, clear, (access_mask_eq_bits_iff offset).mpr nonnegative, BitVec.zero_xor,
    ofBits_bits]

/-- What one call of a pair sets is what the other gets, whatever the mask. -/
theorem get_set {words : UInt16} (inside : (offset.toNat + 1) * s.width ≤ 64 * words.toNat)
    {st : MessageBuilder} (valid : st.Valid) {b : StructBuilder} (allocated : b.Allocated st)
    (large : words.toNat ≤ b.dataWords) (v : s.Value)
    : s.get
        (b.reader (s.set b (access s offset d).offset (access s offset d).mask v st))
        (access s offset d).offset (access s offset d).mask
      = s.ofBits (s.toBits v) := by
  have position : s.bitOffset (access s offset d).offset = offset.toNat * s.width :=
    bitOffset_scaledOffset s offset words.toNat_lt inside
  rw [Nat.succ_mul] at inside
  have pointers := allocated.pointers
  have room := allocated.inside
  rw [Scalar.get_eq, Scalar.set_eq, Scalar.read_write s valid (by omega), BitVec.xor_assoc,
    BitVec.xor_self, BitVec.xor_zero]

end ScalarDefault

/-- A value is represented when its bits give it back. -/
theorem represents_scalar_iff (s : Scalar) (v : s.Value)
    : SlotType.Represents (.scalar s) v ↔ s.ofBits (s.toBits v) = v := by
  cases s with
  | float32 =>
      exact ⟨fun ⟨bits, same⟩ => Scalar.ofBits_toBits .float32 (fun _ => ⟨bits.toBitVec, same⟩),
        fun same => ⟨float32Bits v, same⟩⟩
  | _ => exact iff_of_true trivial (Scalar.ofBits_toBits _ (fun other => nomatch other))

/-- An enum value is represented when its ordinal gives it back. -/
theorem represents_enum_iff {enumerants : Nat} (v : EnumValue enumerants)
    : SlotType.Represents (.enum enumerants) v ↔ EnumValue.ofUInt16 v.toUInt16 = v := by
  cases v with
  | enumerant ordinal declared =>
      exact iff_of_true (fun _ other => nomatch other) (dif_pos declared)
  | unknown code =>
      rw [EnumValue.toUInt16, EnumValue.ofUInt16]
      split_ifs with declared
      · refine iff_of_false (fun all => ?_) nofun
        exact Nat.not_le.mpr declared (all code rfl)
      · refine iff_of_true ?_ rfl
        rintro _ ⟨⟩
        exact Nat.le_of_not_lt declared

/-- Writing the discriminant keeps the struct where it is. -/
theorem DiscriminantWrite.run_allocated (discriminant : DiscriminantWrite) {st : MessageBuilder}
    (valid : st.Valid) {b : StructBuilder} (allocated : b.Allocated st)
    : (discriminant.run b st).Valid ∧ b.Allocated (discriminant.run b st) :=
  ⟨writeBytesAt_valid valid .., allocated.pointers, allocated.inside⟩

/-- A setter sets its value after the discriminant. -/
theorem Setter.exists_run_eq {type : SlotType} (setter : Setter type) {st : MessageBuilder}
    (valid : st.Valid) {b : StructBuilder} (allocated : b.Allocated st) (v : type.Value)
    : ∃ st' : MessageBuilder, st'.Valid ∧ b.Allocated st'
      ∧ setter.run b v st = setter.value.run b v st' := by
  rw [Setter.run]
  cases setter.discriminant with
  | none => exact ⟨st, valid, allocated, rfl⟩
  | some discriminant =>
      obtain ⟨valid, allocated⟩ := discriminant.run_allocated valid allocated
      exact ⟨_, valid, allocated, rfl⟩

/-- A builder with a struct of so many data words. -/
theorem exists_allocated (words : Nat)
    : ∃ (st : MessageBuilder) (b : StructBuilder), st.Valid ∧ b.Allocated st
      ∧ words ≤ b.dataWords :=
  have valid := initMessageBuilder_valid 0
  ⟨_, _, initStructPointer_valid valid getRootPointer words 0,
    initStructPointer_allocated valid getRootPointer words 0, Nat.le_refl words⟩

/-- The three switches emit one call for the field, which addresses the field's bits, reads a
zero struct as the default and gets back what is set as far as these conditions say.
-/
structure OneCall (f : SlotField) (get : GetExpr f.type) (set : SetExpr f.type) : Prop where
  getter : f.getter = get
  checkedGetter : f.checkedGetter = .pure get
  setter : f.setter = ⟨f.discriminant, set⟩
  place : set.place = get.place
  place_iff : get.place = f.place ↔ ¬ f.NegativeZero
  allZero
    : ¬ f.NegativeZero → ∀ r : StructReader, f.dataWordCount.toNat ≤ r.dataWords →
        (∀ k < 8 * r.dataWords, readByte r.msg r.seg (r.dataOff * 8 + k) = 0) →
          get.eval r = f.default
  setThenGet_iff
    : ∀ (v : f.type.Value) {st : MessageBuilder} {b : StructBuilder}, st.Valid →
        b.Allocated st → f.dataWordCount.toNat ≤ b.dataWords →
          (get.eval (b.reader (set.run b v st)) = v ↔ f.type.Represents v)

/-- Where getter and setter are one call each, the accessors agree except for a negative zero
and values without bits of their own.
-/
theorem OneCall.agree_iff {f : SlotField} {get : GetExpr f.type} {set : SetExpr f.type}
    (call : OneCall f get set) (v : f.type.Value)
    : f.AccessorsAgree v ↔ ¬ f.NegativeZero ∧ f.type.Represents v := by
  have setThenGet {st : MessageBuilder} {b : StructBuilder} (valid : st.Valid)
      (allocated : b.Allocated st) (large : f.dataWordCount.toNat ≤ b.dataWords)
      : f.getter.eval (b.reader (f.setter.run b v st)) = v ↔ f.type.Represents v := by
    obtain ⟨st', valid, allocated, run⟩ := f.setter.exists_run_eq valid allocated v
    rw [run, call.getter, call.setter]
    exact call.setThenGet_iff v valid allocated large
  constructor
  · intro agree
    obtain ⟨st, b, valid, allocated, large⟩ := exists_allocated f.dataWordCount.toNat
    have place := agree.getter
    rw [call.getter] at place
    exact ⟨call.place_iff.mp place,
      (setThenGet valid allocated large).mp (agree.setThenGet st b valid allocated large).1⟩
  · rintro ⟨nonnegative, represents⟩
    have place := call.place_iff.mpr nonnegative
    have checked (r : StructReader) : f.checkedGetter.eval r = .ok (f.getter.eval r) := by
      rw [call.getter, call.checkedGetter, CheckedExpr.eval]
    refine
      { getter := by rw [call.getter, place]
        checkedGetter := by rw [call.checkedGetter, place]
        setter := by rw [call.setter, call.place, place]
        allZero := fun r large zero => ?_
        setThenGet := fun st b valid allocated large => ?_ }
    · have value := call.allZero nonnegative r large zero
      rw [checked, call.getter, value]
      exact ⟨rfl, rfl⟩
    · have value := (setThenGet valid allocated large).mpr represents
      rw [checked, value]
      exact ⟨rfl, rfl⟩

/-- The accessors of a scalar are one call each. -/
theorem oneCall_scalar (words : UInt16) (s : Scalar) (offset : UInt32) (d : ScalarDefault s)
    (discriminant : Option DiscriminantWrite)
    (inside : (offset.toNat + 1) * s.width ≤ 64 * words.toNat)
    : OneCall ⟨words, .scalar s, offset, d, discriminant, inside⟩
        (.get (ScalarDefault.access s offset d)) (.set (ScalarDefault.access s offset d)) where
  getter := ScalarDefault.genFieldAccessor_scalar s offset d
  checkedGetter := ScalarDefault.genFieldAccessorChecked_scalar s offset d
  setter := ScalarDefault.genSetter_scalar s offset d discriminant
  place := rfl
  place_iff := Option.some_inj.trans (ScalarDefault.access_place_iff offset inside)
  allZero := fun nonnegative _ large zero =>
    ScalarDefault.get_allZero offset inside nonnegative large zero
  setThenGet_iff := by
    intro v st b valid allocated large
    have value := ScalarDefault.get_set (d := d) offset inside valid allocated large v
    exact (Eq.congr_left value).trans (represents_scalar_iff s v).symm

/-- So are those of an enum. -/
theorem oneCall_enum (words : UInt16) (enumerants : Nat) (offset : UInt32) (d : UInt16)
    (discriminant : Option DiscriminantWrite)
    (inside : (offset.toNat + 1) * 16 ≤ 64 * words.toNat)
    : OneCall ⟨words, .enum enumerants, offset, d, discriminant, inside⟩
        (.ofUInt16 (ScalarDefault.access .uint16 offset d))
        (.toUInt16 (ScalarDefault.access .uint16 offset d)) where
  getter := rfl
  checkedGetter := rfl
  setter := rfl
  place := rfl
  place_iff := Option.some_inj.trans
    (ScalarDefault.access_place_iff (s := .uint16) (d := d) offset inside)
  allZero := fun _ _ large zero =>
    congrArg EnumValue.ofUInt16
      (ScalarDefault.get_allZero (s := .uint16) (d := d) offset inside id large zero)
  setThenGet_iff := by
    intro v st b valid allocated large
    have value := ScalarDefault.get_set (s := .uint16) (d := d) offset inside valid allocated large
      (EnumValue.toUInt16 v)
    exact (Eq.congr_left (congrArg EnumValue.ofUInt16 value)).trans (represents_enum_iff v).symm

/-- The accessors of a field agree with the schema and with each other exactly where its
default is not a negative zero and some stored bits stand for the value.
-/
theorem accessors_agree_iff (f : SlotField) (v : f.type.Value)
    : f.AccessorsAgree v ↔ ¬ f.NegativeZero ∧ f.type.Represents v := by
  obtain ⟨words, type, offset, d, discriminant, inside⟩ := f
  cases type with
  | void =>
      refine iff_of_true ?_ ⟨id, trivial⟩
      exact
        { getter := rfl, checkedGetter := rfl, setter := rfl
          allZero := fun _ _ _ => ⟨rfl, rfl⟩
          setThenGet := fun _ _ _ _ _ => ⟨rfl, rfl⟩ }
  | scalar s => exact (oneCall_scalar words s offset d discriminant inside).agree_iff v
  | enum enumerants =>
      exact (oneCall_enum words enumerants offset d discriminant inside).agree_iff v

/-- A double that defaults to the negative zero, alone in its struct. -/
def negativeZeroField : SlotField where
  dataWordCount := 1
  type := .scalar .float64
  offset := 0
  defaultValue := (0x8000000000000000 : UInt64)
  discriminant := none
  inside := by decide

def zeroStruct : StructReader where
  msg := { segments := [[0, 0, 0, 0, 0, 0, 0, 0]] }
  seg := 0
  dataOff := 0
  dataWords := 1
  ptrOff := 1
  ptrCount := 0

/-- Its getter reads the positive zero from a zero struct. -/
theorem not_accessors_agree
    : ¬ ∀ (f : SlotField) (v : f.type.Value), f.type.Represents v → f.AccessorsAgree v := by
  intro always
  have agree := always negativeZeroField (Float.ofBits 0) trivial
  have zero : ∀ k < 8 * zeroStruct.dataWords,
      readByte zeroStruct.msg zeroStruct.seg (zeroStruct.dataOff * 8 + k) = 0 := by
    decide
  have default := (agree.allZero zeroStruct (by decide) zero).1
  have positive : Float.ofBits 0 = Float.ofBits 0x8000000000000000 := default
  exact absurd positive (by decide)

end Capnp.Plugin
