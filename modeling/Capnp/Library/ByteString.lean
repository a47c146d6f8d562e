import Mathlib.Data.List.Basic
import Mathlib.Data.UInt
import Mathlib.Tactic.IntervalCases

/-! Pieces of a sequence at given offsets, little-endian 32-bit numbers as pieces, the bytes of
texts, and a loop that reads a counted run of items one after the other.
-/

namespace ByteString

section Pieces

variable {α : Type*}

/-- The items of `piece` stand in `bytes` from `offset` on. -/
def StandsAt (bytes : List α) (offset : Nat) (piece : List α) : Prop :=
  offset + piece.length ≤ bytes.length ∧ (bytes.drop offset).take piece.length = piece

/-- Nothing stands anywhere inside. -/
@[simp] theorem standsAt_nil {bytes : List α} {offset : Nat}
    : StandsAt bytes offset [] ↔ offset ≤ bytes.length := by
  simp [StandsAt]

/-- What stands somewhere fits there. -/
theorem StandsAt.fits {bytes piece : List α} {offset : Nat} (stands : StandsAt bytes offset piece)
    : offset + piece.length ≤ bytes.length :=
  stands.1

/-- A piece is what `take` and `drop` give. -/
theorem standsAt_slice {bytes : List α} {offset length : Nat}
    (fits : offset + length ≤ bytes.length)
    : StandsAt bytes offset ((bytes.drop offset).take length)
      ∧ ((bytes.drop offset).take length).length = length := by
  have size : ((bytes.drop offset).take length).length = length := by
    rw [List.length_take, List.length_drop]
    omega
  refine ⟨⟨?_, ?_⟩, size⟩
  · rw [size]
    exact fits
  · rw [size]

/-- What stands somewhere is the slice there. -/
theorem StandsAt.eq_slice {bytes piece : List α} {offset : Nat}
    (stands : StandsAt bytes offset piece)
    : (bytes.drop offset).take piece.length = piece :=
  stands.2

/-- Two pieces of one length at one place are the same. -/
theorem StandsAt.unique {bytes first second : List α} {offset : Nat}
    (left : StandsAt bytes offset first) (right : StandsAt bytes offset second)
    (length : first.length = second.length)
    : first = second := by
  rw [← left.eq_slice, ← right.eq_slice, length]

/-- A piece stands somewhere exactly when its two parts stand there behind each other. -/
theorem standsAt_append {bytes front back : List α} {offset : Nat}
    : StandsAt bytes offset (front ++ back)
      ↔ StandsAt bytes offset front ∧ StandsAt bytes (offset + front.length) back := by
  have split
      : (bytes.drop offset).take (front ++ back).length
        = (bytes.drop offset).take front.length
          ++ (bytes.drop (offset + front.length)).take back.length := by
    rw [List.length_append, List.take_add, List.drop_drop]
  unfold StandsAt
  rw [split]
  constructor
  · intro stands
    obtain ⟨fits, same⟩ := stands
    rw [List.length_append] at fits
    have size : ((bytes.drop offset).take front.length).length = front.length := by
      rw [List.length_take, List.length_drop]
      omega
    obtain ⟨left, right⟩ := List.append_inj same size
    exact ⟨⟨by omega, left⟩, by omega, right⟩
  · intro stands
    obtain ⟨⟨_, left⟩, fits, right⟩ := stands
    rw [left, right, List.length_append]
    exact ⟨by omega, rfl⟩

/-- A piece still stands where more follows. -/
theorem StandsAt.append {bytes piece : List α} {offset : Nat}
    (stands : StandsAt bytes offset piece) (more : List α)
    : StandsAt (bytes ++ more) offset piece := by
  have fits := stands.fits
  refine ⟨by rw [List.length_append]; omega, ?_⟩
  rw [List.drop_append_of_le_length (by omega),
    List.take_append_of_le_length (by rw [List.length_drop]; omega), stands.eq_slice]

/-- A piece from the start that has the whole length is the whole. -/
theorem standsAt_zero {bytes piece : List α}
    : StandsAt bytes 0 piece ∧ piece.length = bytes.length ↔ piece = bytes := by
  constructor
  · intro stands
    obtain ⟨⟨_, same⟩, length⟩ := stands
    rw [length, List.drop_zero, List.take_length] at same
    exact same.symm
  · intro same
    subst same
    simp [StandsAt]

end Pieces

-----------------------------------------------------------------------------------------
-- Little-endian 32-bit numbers
-----------------------------------------------------------------------------------------

def uint32Le (value : UInt32) : List UInt8 :=
  [value.toUInt8, (value >>> 8).toUInt8, (value >>> 16).toUInt8, (value >>> 24).toUInt8]

def ofUint32Le (b0 b1 b2 b3 : UInt8) : UInt32 :=
  b0.toUInt32 ||| b1.toUInt32 <<< 8 ||| b2.toUInt32 <<< 16 ||| b3.toUInt32 <<< 24

/-- A number takes four bytes. -/
@[simp] theorem length_uint32Le (value : UInt32) : (uint32Le value).length = 4 := rfl

/-- A byte shifted above all bits of a smaller number is added to it. -/
theorem toNat_or_shifted (low amount : UInt32) (shift : Nat) (byte : UInt8)
    (places : amount.toNat = shift) (inWord : shift ≤ 24) (small : low.toNat < 2 ^ shift)
    : (low ||| byte.toUInt32 <<< amount).toNat = low.toNat + byte.toNat * 2 ^ shift := by
  have range : byte.toNat < 2 ^ 8 := byte.toNat_lt
  have fits : byte.toNat * 2 ^ shift < 2 ^ 32 := by
    calc
      byte.toNat * 2 ^ shift < 2 ^ 8 * 2 ^ shift :=
        Nat.mul_lt_mul_of_pos_right range (Nat.two_pow_pos _)
      _ = 2 ^ (8 + shift) := (Nat.pow_add ..).symm
      _ ≤ 2 ^ 32 := Nat.pow_le_pow_right (by omega) (by omega)
  have shifted : (byte.toUInt32 <<< amount).toNat = byte.toNat <<< shift := by
    rw [UInt32.toNat_shiftLeft, places, Nat.mod_eq_of_lt (by omega : shift < 32),
      UInt8.toNat_toUInt32, Nat.shiftLeft_eq, Nat.mod_eq_of_lt fits]
  rw [UInt32.toNat_or, shifted, Nat.or_comm, ← Nat.shiftLeft_add_eq_or_of_lt small,
    Nat.shiftLeft_eq, Nat.add_comm]

/-- Four bytes are the digits of their number. -/
theorem toNat_ofUint32Le (b0 b1 b2 b3 : UInt8)
    : (ofUint32Le b0 b1 b2 b3).toNat
      = b0.toNat + b1.toNat * 2 ^ 8 + b2.toNat * 2 ^ 16 + b3.toNat * 2 ^ 24 := by
  have range0 := b0.toNat_lt
  have range1 := b1.toNat_lt
  have range2 := b2.toNat_lt
  have first : b0.toUInt32.toNat = b0.toNat := UInt8.toNat_toUInt32 b0
  have second := toNat_or_shifted b0.toUInt32 8 8 b1 rfl (by omega) (by omega)
  have third := toNat_or_shifted _ 16 16 b2 rfl (by omega)
    (by omega : (b0.toUInt32 ||| b1.toUInt32 <<< 8).toNat < 2 ^ 16)
  have fourth := toNat_or_shifted _ 24 24 b3 rfl (by omega)
    (by omega : (b0.toUInt32 ||| b1.toUInt32 <<< 8 ||| b2.toUInt32 <<< 16).toNat < 2 ^ 24)
  unfold ofUint32Le
  omega

/-- A byte of a number is one of its digits. -/
theorem toNat_byte_of_uint32 (value amount : UInt32) (shift : Nat)
    (places : amount.toNat = shift) (inWord : shift < 32)
    : (value >>> amount).toUInt8.toNat = value.toNat / 2 ^ shift % 2 ^ 8 := by
  rw [UInt32.toNat_toUInt8, UInt32.toNat_shiftRight, places, Nat.mod_eq_of_lt inWord,
    Nat.shiftRight_eq_div_pow]

/-- Four bytes are read as the number that they were written for. -/
theorem ofUint32Le_uint32Le (value : UInt32)
    : ofUint32Le value.toUInt8 (value >>> 8).toUInt8 (value >>> 16).toUInt8
        (value >>> 24).toUInt8
      = value := by
  have range := value.toNat_lt
  rw [← UInt32.toNat_inj, toNat_ofUint32Le, UInt32.toNat_toUInt8,
    toNat_byte_of_uint32 value 8 8 rfl (by omega),
    toNat_byte_of_uint32 value 16 16 rfl (by omega),
    toNat_byte_of_uint32 value 24 24 rfl (by omega)]
  omega

/-- A number is written as the bytes that it was read from. -/
theorem uint32Le_ofUint32Le (b0 b1 b2 b3 : UInt8)
    : uint32Le (ofUint32Le b0 b1 b2 b3) = [b0, b1, b2, b3] := by
  have value := toNat_ofUint32Le b0 b1 b2 b3
  have range0 := b0.toNat_lt
  have range1 := b1.toNat_lt
  have range2 := b2.toNat_lt
  have range3 := b3.toNat_lt
  simp only [uint32Le, List.cons.injEq, and_true, ← UInt8.toNat_inj]
  rw [UInt32.toNat_toUInt8,
    toNat_byte_of_uint32 _ 8 8 rfl (by omega),
    toNat_byte_of_uint32 _ 16 16 rfl (by omega),
    toNat_byte_of_uint32 _ 24 24 rfl (by omega), value]
  omega

/-- Four bytes one by one. -/
theorem take_four {bytes : List UInt8} {offset : Nat} (fits : offset + 4 ≤ bytes.length)
    : (bytes.drop offset).take 4
      = [bytes.getD offset 0, bytes.getD (offset + 1) 0, bytes.getD (offset + 2) 0,
          bytes.getD (offset + 3) 0] := by
  have get (i : Nat) (inside : i < 4) : bytes[offset + i]? = some (bytes.getD (offset + i) 0) := by
    have present : offset + i < bytes.length := by omega
    simp [List.getD, List.getElem?_eq_getElem present]
  refine List.ext_getElem? (fun i => ?_)
  rcases Nat.lt_or_ge i 4 with inside | outside
  · rw [List.getElem?_take_of_lt inside, List.getElem?_drop, get i inside]
    interval_cases i <;> rfl
  · rw [List.getElem?_eq_none (by rw [List.length_take]; omega),
      List.getElem?_eq_none (by simpa using outside)]

/-- The four bytes from an offset on are those of a number exactly when it is read there. -/
theorem standsAt_uint32Le {bytes : List UInt8} {offset : Nat} {value : UInt32}
    : StandsAt bytes offset (uint32Le value)
      ↔ offset + 4 ≤ bytes.length
        ∧ ofUint32Le (bytes.getD offset 0) (bytes.getD (offset + 1) 0)
            (bytes.getD (offset + 2) 0) (bytes.getD (offset + 3) 0)
          = value := by
  constructor
  · intro stands
    obtain ⟨fits, same⟩ := stands
    rw [length_uint32Le] at fits same
    rw [take_four fits] at same
    simp only [uint32Le, List.cons.injEq, and_true] at same
    obtain ⟨b0, b1, b2, b3⟩ := same
    exact ⟨fits, by rw [b0, b1, b2, b3, ofUint32Le_uint32Le]⟩
  · intro read
    obtain ⟨fits, rfl⟩ := read
    refine ⟨fits, ?_⟩
    rw [length_uint32Le, take_four fits, uint32Le_ofUint32Le]

/-- The bytes of a text. -/
def toUtf8 (text : String) : List UInt8 :=
  text.toUTF8.data.toList

/-- The bytes are listed one by one, by induction on the loop. -/
theorem loop_toList (bytes : ByteArray) (i : Nat) (listed : List UInt8)
    : ByteArray.toList.loop bytes i listed = listed.reverse ++ bytes.data.toList.drop i := by
  fun_induction ByteArray.toList.loop bytes i listed with
  | case1 i listed inside ih =>
      have inside : i < bytes.data.toList.length := inside
      have byte : bytes.get! i = bytes.data.toList[i] := getElem!_pos bytes.data i inside
      rw [ih, List.reverse_cons, List.append_assoc, List.drop_eq_getElem_cons inside, byte]
      rfl
  | case2 i listed outside =>
      have outside : bytes.data.toList.length ≤ i := Nat.le_of_not_lt outside
      rw [List.drop_of_length_le outside, List.append_nil]

/-- The bytes of a text as a list. -/
theorem toList_toUTF8 (text : String) : text.toUTF8.toList = toUtf8 text :=
  loop_toList text.toUTF8 0 []

def fromUtf8? (bytes : List UInt8) : Option String :=
  String.fromUTF8? ⟨bytes.toArray⟩

def ValidUtf8 (bytes : List UInt8) : Prop :=
  ByteArray.IsValidUTF8 ⟨bytes.toArray⟩

/-- Bytes are read as a text exactly if they are its bytes. -/
theorem fromUtf8?_eq_some_iff {bytes : List UInt8} {text : String}
    : fromUtf8? bytes = some text ↔ toUtf8 text = bytes := by
  unfold fromUtf8? String.fromUTF8?
  constructor
  · intro read
    split at read
    · obtain rfl := Option.some.inj read
      rfl
    · cases read
  · intro same
    subst same
    have valid : ByteArray.IsValidUTF8 ⟨(toUtf8 text).toArray⟩ := text.isValidUTF8
    rw [dif_pos valid]
    rfl

/-- Valid bytes are those of a text. -/
theorem validUtf8_iff {bytes : List UInt8} : ValidUtf8 bytes ↔ ∃ text, toUtf8 text = bytes := by
  constructor
  · intro valid
    exact ⟨String.fromUTF8 _ valid, rfl⟩
  · intro written
    obtain ⟨text, rfl⟩ := written
    exact text.isValidUTF8

section Runs

universe u

variable {α β ε : Type*}

/-- A computation in two steps gives a result when both do. -/
theorem bind_eq_ok_iff {σ τ : Type u} {read : Except ε σ} {next : σ → Except ε τ} {result : τ}
    : (read >>= next) = .ok result ↔ ∃ value, read = .ok value ∧ next value = .ok result := by
  cases read with
  | error reason => simp [bind, Except.bind]
  | ok value => simp [bind, Except.bind]

/-- Reads items one after the other and collects them. -/
def readMany (item : Nat → Except ε (α × Nat))
    : Nat → Nat → List α → Except ε (List α × Nat)
  | 0, cursor, found => .ok (found, cursor)
  | remaining + 1, cursor, found => do
      let (value, next) ← item cursor
      readMany item remaining next (found ++ [value])

/-- The loop succeeds exactly on the bytes of a run of items, by induction on the count. -/
theorem readMany_ok_iff {bytes : List β} {item : Nat → Except ε (α × Nat)} (wire : α → List β)
    (valid : α → Prop)
    (item_iff
      : ∀ cursor value next, cursor ≤ bytes.length →
          (item cursor = .ok (value, next)
            ↔ valid value ∧ StandsAt bytes cursor (wire value)
              ∧ next = cursor + (wire value).length))
    {count cursor last : Nat} {found result : List α} (inside : cursor ≤ bytes.length)
    : readMany item count cursor found = .ok (result, last)
      ↔ ∃ more,
          result = found ++ more
          ∧ more.length = count
          ∧ (∀ value ∈ more, valid value)
          ∧ StandsAt bytes cursor (more.flatMap wire)
          ∧ last = cursor + (more.flatMap wire).length := by
  induction count generalizing cursor found with
  | zero =>
      simp only [readMany, Except.ok.injEq, Prod.mk.injEq]
      constructor
      · intro done
        obtain ⟨rfl, rfl⟩ := done
        exact ⟨[], by simp, rfl, by simp, by simpa using inside, by simp⟩
      · intro read
        obtain ⟨more, rfl, none, -, -, rfl⟩ := read
        obtain rfl := List.eq_nil_of_length_eq_zero none
        simp
  | succ count ih =>
      constructor
      · intro done
        obtain ⟨⟨value, next⟩, first, done⟩ := bind_eq_ok_iff.mp done
        obtain ⟨fine, stands, rfl⟩ := (item_iff cursor value next inside).mp first
        obtain ⟨more, rfl, length, all, rest, rfl⟩ := (ih stands.fits).mp done
        refine ⟨value :: more, by simp, by simp [length], ?_, ?_, ?_⟩
        · simpa using ⟨fine, all⟩
        · exact standsAt_append.mpr ⟨stands, rest⟩
        · simp only [List.flatMap_cons, List.length_append]
          omega
      · intro read
        obtain ⟨more, rfl, length, all, stands, rfl⟩ := read
        cases more with
        | nil => simp at length
        | cons value more =>
            obtain ⟨first, rest⟩ := standsAt_append.mp stands
            have got :=
              (item_iff cursor value _ inside).mpr ⟨all value List.mem_cons_self, first, rfl⟩
            refine bind_eq_ok_iff.mpr ⟨_, got, (ih first.fits).mpr ?_⟩
            refine ⟨more, by simp, by simpa using length, ?_, rest, ?_⟩
            · exact fun value member => all value (List.mem_cons_of_mem _ member)
            · simp only [List.flatMap_cons, List.length_append]
              omega

/-- The loop from an empty collection. -/
theorem readMany_nil_ok_iff {bytes : List β} {item : Nat → Except ε (α × Nat)} (wire : α → List β)
    (valid : α → Prop)
    (item_iff
      : ∀ cursor value next, cursor ≤ bytes.length →
          (item cursor = .ok (value, next)
            ↔ valid value ∧ StandsAt bytes cursor (wire value)
              ∧ next = cursor + (wire value).length))
    {count cursor last : Nat} {result : List α} (inside : cursor ≤ bytes.length)
    : readMany item count cursor [] = .ok (result, last)
      ↔ result.length = count
        ∧ (∀ value ∈ result, valid value)
        ∧ StandsAt bytes cursor (result.flatMap wire)
        ∧ last = cursor + (result.flatMap wire).length := by
  rw [readMany_ok_iff wire valid item_iff inside]
  constructor
  · intro read
    obtain ⟨more, rfl, run⟩ := read
    simpa using run
  · intro run
    exact ⟨result, by simp, run⟩

end Runs

end ByteString
