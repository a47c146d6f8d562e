import Capnp.Library.ByteString

/-! Little-endian 16-bit numbers as pieces of a byte string, and runs of items of one width:
a loop reads an item at every multiple of the width, as long as a condition of its own on the
rest of the input holds.
-/

namespace ByteString

-----------------------------------------------------------------------------------------
-- Little-endian 16-bit numbers
-----------------------------------------------------------------------------------------

def uint16Le (value : UInt16) : List UInt8 :=
  [value.toUInt8, (value >>> 8).toUInt8]

def ofUint16Le (b0 b1 : UInt8) : UInt16 :=
  b0.toUInt16 ||| b1.toUInt16 <<< 8

/-- A number takes two bytes. -/
@[simp] theorem length_uint16Le (value : UInt16) : (uint16Le value).length = 2 := rfl

/-- The higher byte counts 256 times. -/
theorem toNat_shifted_byte (b1 : UInt8) : (b1.toUInt16 <<< 8).toNat = b1.toNat * 2 ^ 8 := by
  have range := b1.toNat_lt
  rw [UInt16.toNat_shiftLeft, UInt8.toNat_toUInt16, Nat.shiftLeft_eq]
  exact Nat.mod_eq_of_lt (by simp only [UInt16.reduceToNat, Nat.reduceMod]; omega)

/-- Two bytes are the digits of their number. -/
theorem toNat_ofUint16Le (b0 b1 : UInt8)
    : (ofUint16Le b0 b1).toNat = b0.toNat + b1.toNat * 2 ^ 8 := by
  have range : b0.toNat < 2 ^ 8 := b0.toNat_lt
  rw [ofUint16Le, UInt16.toNat_or, toNat_shifted_byte, UInt8.toNat_toUInt16, Nat.or_comm,
    ← Nat.shiftLeft_eq, ← Nat.shiftLeft_add_eq_or_of_lt range, Nat.add_comm]

/-- The bits of the two bytes do not meet, so that adding them is joining them. -/
theorem add_eq_ofUint16Le (b0 b1 : UInt8)
    : b0.toUInt16 + b1.toUInt16 <<< 8 = ofUint16Le b0 b1 := by
  have range0 := b0.toNat_lt
  have range1 := b1.toNat_lt
  rw [← UInt16.toNat_inj, toNat_ofUint16Le, UInt16.toNat_add, toNat_shifted_byte,
    UInt8.toNat_toUInt16]
  omega

/-- The higher byte is a digit. -/
theorem toNat_high_byte (value : UInt16)
    : (value >>> 8).toUInt8.toNat = value.toNat / 2 ^ 8 := by
  have range := value.toNat_lt
  have shifted : (value >>> 8).toNat = value.toNat / 2 ^ 8 := by
    rw [UInt16.toNat_shiftRight, Nat.shiftRight_eq_div_pow]
    rfl
  rw [UInt16.toNat_toUInt8, shifted]
  omega

/-- A number is read back from its bytes. -/
theorem ofUint16Le_uint16Le (value : UInt16)
    : ofUint16Le value.toUInt8 (value >>> 8).toUInt8 = value := by
  rw [← UInt16.toNat_inj, toNat_ofUint16Le, UInt16.toNat_toUInt8, toNat_high_byte]
  omega

/-- Bytes are those of the number that they stand for. -/
theorem uint16Le_ofUint16Le (b0 b1 : UInt8) : uint16Le (ofUint16Le b0 b1) = [b0, b1] := by
  have range0 := b0.toNat_lt
  have range1 := b1.toNat_lt
  simp only [uint16Le, List.cons.injEq, and_true, ← UInt8.toNat_inj]
  rw [UInt16.toNat_toUInt8, toNat_high_byte, toNat_ofUint16Le]
  omega

/-- The two bytes from an offset on are those of a number exactly when it is read there. -/
theorem standsAt_uint16Le {bytes : List UInt8} {offset : Nat} {value : UInt16}
    : StandsAt bytes offset (uint16Le value)
      ↔ offset + 2 ≤ bytes.length
        ∧ ofUint16Le (bytes.getD offset 0) (bytes.getD (offset + 1) 0) = value := by
  have slice (fits : offset + 2 ≤ bytes.length)
      : (bytes.drop offset).take 2 = [bytes.getD offset 0, bytes.getD (offset + 1) 0] := by
    rw [List.drop_eq_getElem_cons (by omega), List.drop_eq_getElem_cons (by omega),
      List.getD_eq_getElem?_getD, List.getD_eq_getElem?_getD,
      List.getElem?_eq_getElem (by omega), List.getElem?_eq_getElem (by omega)]
    rfl
  constructor
  · intro stands
    obtain ⟨fits, same⟩ := stands
    rw [length_uint16Le] at fits same
    rw [slice fits] at same
    simp only [uint16Le, List.cons.injEq, and_true] at same
    obtain ⟨b0, b1⟩ := same
    exact ⟨fits, by rw [b0, b1, ofUint16Le_uint16Le]⟩
  · intro read
    obtain ⟨fits, rfl⟩ := read
    exact ⟨fits, by rw [length_uint16Le, slice fits, uint16Le_ofUint16Le]⟩

-----------------------------------------------------------------------------------------
-- Runs of items of one width
-----------------------------------------------------------------------------------------

section FixedWidth

variable {α β : Type*}

/-- `for (; i + reach <= size; i += width)`, collecting what is read at each `i`. -/
def readEach (size reach width : Nat) [NeZero reach] [NeZero width] (read : Nat → α) (i : Nat)
    (found : List α)
    : List α :=
  if i + reach ≤ size then readEach size reach width read (i + width) (found ++ [read i])
  else found
termination_by size - i
decreasing_by
  have := NeZero.pos reach
  have := NeZero.pos width
  omega

/-- Items written with one width and read back at an offset where their bytes stand. -/
structure FixedWidth (width : Nat) (write : α → List β) (read : List β → Nat → α) : Prop where
  length : ∀ value, (write value).length = width
  stands_iff
    : ∀ bytes offset value,
        StandsAt bytes offset (write value)
        ↔ offset + width ≤ bytes.length ∧ read bytes offset = value

variable {width reach : Nat} {write : α → List β} {read : List β → Nat → α}

/-- So many items have so many times their width. -/
theorem FixedWidth.length_flatMap (items : FixedWidth width write read) (values : List α)
    : (values.flatMap write).length = width * values.length := by
  simp [List.length_flatMap, items.length, Nat.mul_comm]

/-- Every sequence of a whole number of widths is a run of items, by induction on that
number.
-/
theorem FixedWidth.exists_values (items : FixedWidth width write read) {count : Nat}
    {bytes : List β} {i : Nat} (rest : i + width * count = bytes.length)
    : ∃ values : List α, values.length = count ∧ StandsAt bytes i (values.flatMap write) := by
  induction count generalizing i with
  | zero => exact ⟨[], rfl, by simp only [List.flatMap_nil, standsAt_nil]; omega⟩
  | succ count ih =>
      rw [Nat.mul_succ] at rest
      obtain ⟨values, length, later⟩ := ih (i := i + width) (by omega)
      have first := (items.stands_iff bytes i (read bytes i)).mpr ⟨by omega, rfl⟩
      refine ⟨read bytes i :: values, by rw [List.length_cons, length], ?_⟩
      rw [List.flatMap_cons, standsAt_append, items.length]
      exact ⟨first, later⟩

/-- Bytes of a fitting size are those of some items. -/
theorem FixedWidth.exists_eq_flatMap (items : FixedWidth width write read) {bytes : List β}
    (multiple : bytes.length % width = 0)
    : ∃ values : List α, bytes = values.flatMap write := by
  obtain ⟨count, length⟩ := Nat.dvd_of_mod_eq_zero multiple
  obtain ⟨values, number, stands⟩ := items.exists_values (i := 0) (by rw [length, Nat.zero_add])
  refine ⟨values, (standsAt_zero.mp ⟨stands, ?_⟩).symm⟩
  rw [items.length_flatMap, number, length]

variable [NeZero width] [NeZero reach]

/-- The loop reads the items that stand from its offset on, up to the last one behind which
its condition fails, by induction on the items.
-/
theorem FixedWidth.readEach_of_stands (items : FixedWidth width write read)
    (within : reach ≤ width) {bytes : List β} {values found : List α} {i : Nat}
    (stands : StandsAt bytes i (values.flatMap write))
    (ends : bytes.length < i + (values.flatMap write).length + reach)
    : readEach bytes.length reach width (read bytes) i found = found ++ values := by
  induction values generalizing i found with
  | nil =>
      rw [readEach, if_neg, List.append_nil]
      simp only [List.flatMap_nil, List.length_nil] at ends
      omega
  | cons value rest ih =>
      rw [List.flatMap_cons] at stands ends
      obtain ⟨first, later⟩ := standsAt_append.mp stands
      obtain ⟨fits, got⟩ := (items.stands_iff bytes i value).mp first
      rw [List.length_append, items.length] at ends
      rw [items.length] at later
      rw [readEach, if_pos (by omega), ih later (by omega), got, List.append_assoc,
        List.singleton_append]

/-- All items of a run are read back. -/
theorem FixedWidth.readEach_flatMap (items : FixedWidth width write read)
    (within : reach ≤ width) (values : List α)
    : readEach (values.flatMap write).length reach width (read (values.flatMap write)) 0 []
      = values := by
  have whole : StandsAt (values.flatMap write) 0 (values.flatMap write) :=
    (standsAt_zero.mpr rfl).1
  have positive := NeZero.pos reach
  exact items.readEach_of_stands within whole (by omega)

end FixedWidth

end ByteString
