import Capnp.Runtime.Reader
import Mathlib.Data.List.GetD

/-! What a struct reader returns for the fields that its struct does not have. The getters
never test the size of the struct, so this depends on the bytes that follow it.
-/

namespace Capnp

/-- The readers that the runtime hands out. -/
inductive StructReader.Obtained : StructReader → Prop
  | lenient (p : AnyPointer) : Obtained (readStruct p)
  | checked {p r} (read : readStructChecked p = .ok r) : Obtained r
  | element {p r} (member : r ∈ readListStruct p) : Obtained r
  | checkedElement {p rs r} (read : readListStructChecked p = .ok rs) (member : r ∈ rs)
    : Obtained r

/-- A field of so many bytes does not lie entirely inside the data section. -/
def StructReader.Outside (r : StructReader) (width byteOff : Nat) : Prop :=
  8 * r.dataWords < byteOff + width

/-- Scalars outside the data section read as zero and their masked versions as the default;
pointers outside the pointer section are null.
-/
structure StructReader.ReadsDefaults (r : StructReader) : Prop where
  bool
    : ∀ bitOff, 64 * r.dataWords ≤ bitOff →
        getBool r bitOff = false ∧ ∀ mask, getBoolMasked r bitOff mask = mask
  uint8
    : ∀ byteOff, r.Outside 1 byteOff →
        getUInt8 r byteOff = 0 ∧ ∀ mask, getUInt8Masked r byteOff mask = mask
  uint16
    : ∀ byteOff, r.Outside 2 byteOff →
        getUInt16 r byteOff = 0 ∧ ∀ mask, getUInt16Masked r byteOff mask = mask
  uint32
    : ∀ byteOff, r.Outside 4 byteOff →
        getUInt32 r byteOff = 0 ∧ ∀ mask, getUInt32Masked r byteOff mask = mask
  uint64
    : ∀ byteOff, r.Outside 8 byteOff →
        getUInt64 r byteOff = 0 ∧ ∀ mask, getUInt64Masked r byteOff mask = mask
  int8
    : ∀ byteOff, r.Outside 1 byteOff →
        getInt8 r byteOff = 0 ∧ ∀ mask, getInt8Masked r byteOff mask = int8FromBits mask
  int16
    : ∀ byteOff, r.Outside 2 byteOff →
        getInt16 r byteOff = 0 ∧ ∀ mask, getInt16Masked r byteOff mask = int16FromBits mask
  int32
    : ∀ byteOff, r.Outside 4 byteOff →
        getInt32 r byteOff = 0 ∧ ∀ mask, getInt32Masked r byteOff mask = int32FromBits mask
  int64
    : ∀ byteOff, r.Outside 8 byteOff →
        getInt64 r byteOff = 0 ∧ ∀ mask, getInt64Masked r byteOff mask = int64FromBits mask
  pointer : ∀ i, r.ptrCount ≤ i → isNullPointer (getPointer r i) = true

/-- The condition. From the first byte on that a field not entirely inside can cover, which is
the seventh last of the data section, the segment holds only zero bytes.
-/
def StructReader.ZeroAfterData (r : StructReader) : Prop :=
  ∀ k, 8 * r.dataWords < k + 8 → readByte r.msg r.seg (r.dataOff * 8 + k) = 0

-----------------------------------------------------------------------------------------
-- The pointer section follows the data section
-----------------------------------------------------------------------------------------

/-- The pointers stand behind the data. -/
theorem decodeStructPtr_ptrOff {p : AnyPointer} {r : StructReader}
    (decoded : decodeStructPtr p = some r)
    : r.ptrOff = r.dataOff + r.dataWords := by
  unfold decodeStructPtr at decoded
  split at decoded
  · simp at decoded
  · simp only at decoded
    split_ifs at decoded
    obtain rfl := Option.some.inj decoded
    rfl

/-- The same for the checked reader. -/
theorem decodeStructPtrChecked_ptrOff {p : AnyPointer} {r : StructReader}
    (decoded : decodeStructPtrChecked p = .ok r)
    : r.ptrOff = r.dataOff + r.dataWords := by
  simp only [decodeStructPtrChecked, bind, Except.bind, pure, Except.pure, throw, throwThe,
    MonadExceptOf.throw] at decoded
  split at decoded
  · simp at decoded
  split at decoded
  · obtain rfl := Except.ok.inj decoded
    rfl
  split at decoded
  · simp at decoded
  split_ifs at decoded
  obtain rfl := Except.ok.inj decoded
  rfl

/-- The same for an element of a list. -/
theorem ListPointer.structReader_ptrOff (d : ListPointer) (i : Nat)
    : (d.structReader i).ptrOff = (d.structReader i).dataOff + (d.structReader i).dataWords :=
  rfl

/-- In every reader the pointers come right after the data. -/
theorem StructReader.Obtained.ptrOff_eq {r : StructReader} (obtained : r.Obtained)
    : r.ptrOff = r.dataOff + r.dataWords := by
  cases obtained with
  | lenient p =>
      unfold readStruct
      split
      next decoded => exact decodeStructPtr_ptrOff decoded
      next => rfl
  | checked read => exact decodeStructPtrChecked_ptrOff read
  | element member =>
      unfold readListStruct at member
      split at member
      · split_ifs at member
        · obtain ⟨i, _, rfl⟩ := List.mem_map.mp member
          exact ListPointer.structReader_ptrOff _ i
        · simp at member
      · simp at member
  | checkedElement read member =>
      simp only [readListStructChecked, bind, Except.bind, pure, Except.pure, throw, throwThe,
        MonadExceptOf.throw] at read
      split at read
      · simp at read
      split at read
      · obtain rfl := Except.ok.inj read
        simp at member
      split_ifs at read
      obtain rfl := Except.ok.inj read
      obtain ⟨i, _, rfl⟩ := List.mem_map.mp member
      exact ListPointer.structReader_ptrOff _ i

-----------------------------------------------------------------------------------------
-- Zero bytes give defaults
-----------------------------------------------------------------------------------------

namespace StructReader.ZeroAfterData

variable {r : StructReader} {byteOff : Nat}

/-- Every byte of a field outside the data section is zero. -/
theorem byte (zero : r.ZeroAfterData) {width : Nat} (outside : r.Outside width byteOff)
    (small : width ≤ 8) (i : Nat)
    : readByte r.msg r.seg (dataByteOff r byteOff + i) = 0 := by
  rw [dataByteOff, Nat.add_assoc]
  exact zero (byteOff + i) (by unfold Outside at outside; omega)

/-- A boolean behind the data section is false, where zeros follow it. -/
theorem bool (zero : r.ZeroAfterData) {bitOff : Nat} (outside : 64 * r.dataWords ≤ bitOff)
    : getBool r bitOff = false := by
  have position : (r.dataOff * 64 + bitOff) / 8 = r.dataOff * 8 + bitOff / 8 := by omega
  have byte := zero (bitOff / 8) (by omega)
  simp [getBool, getBit, position, byte, shr64]

/-- A byte there is zero. -/
theorem uint8 (zero : r.ZeroAfterData) (outside : r.Outside 1 byteOff)
    : getUInt8 r byteOff = 0 :=
  zero.byte outside (by omega) 0

/-- So are two bytes. -/
theorem uint16 (zero : r.ZeroAfterData) (outside : r.Outside 2 byteOff)
    : getUInt16 r byteOff = 0 := by
  have byte := zero.byte outside (by omega)
  have first : readByte r.msg r.seg (dataByteOff r byteOff) = 0 := byte 0
  simp [getUInt16, readUInt16, byte, first]

/-- So are four bytes. -/
theorem uint32 (zero : r.ZeroAfterData) (outside : r.Outside 4 byteOff)
    : getUInt32 r byteOff = 0 := by
  have byte := zero.byte outside (by omega)
  have first : readByte r.msg r.seg (dataByteOff r byteOff) = 0 := byte 0
  simp [getUInt32, readUInt32, byte, first]

/-- So are eight bytes. -/
theorem uint64 (zero : r.ZeroAfterData) (outside : r.Outside 8 byteOff)
    : getUInt64 r byteOff = 0 := by
  rw [getUInt64, readUInt64, wordOfBytes_eq_zero_iff]
  exact fun i _ => zero.byte outside (by omega) i

/-- A pointer outside the pointer section reads a zero word. -/
theorem pointer (zero : r.ZeroAfterData) (ptrOff : r.ptrOff = r.dataOff + r.dataWords) (i : Nat)
    : isNullPointer (getPointer r i) = true := by
  have word : readWord r.msg r.seg (r.ptrOff + i) = 0 := by
    rw [readWord, wordOfBytes_eq_zero_iff]
    intro j inWord
    have position : (r.ptrOff + i) * 8 + j = r.dataOff * 8 + (8 * (r.dataWords + i) + j) := by
      omega
    rw [position]
    exact zero _ (by omega)
  simpa [isNullPointer, getPointer] using word

end StructReader.ZeroAfterData

/-- Reading defaults for all fields and pointers outside a struct takes exactly zero bytes
after its data. Witness: each byte in question is covered by some eight-byte field outside.
-/
theorem reads_defaults_iff {r : StructReader} (obtained : r.Obtained)
    : r.ReadsDefaults ↔ r.ZeroAfterData := by
  constructor
  · intro defaults k after
    have field := (defaults.uint64 k after).1
    rw [getUInt64, readUInt64, wordOfBytes_eq_zero_iff] at field
    exact field 0 (by omega)
  · intro zero
    refine {
      bool := fun bitOff outside => ?_
      uint8 := fun byteOff outside => ?_
      uint16 := fun byteOff outside => ?_
      uint32 := fun byteOff outside => ?_
      uint64 := fun byteOff outside => ?_
      int8 := fun byteOff outside => ?_
      int16 := fun byteOff outside => ?_
      int32 := fun byteOff outside => ?_
      int64 := fun byteOff outside => ?_
      pointer := fun i _ => zero.pointer obtained.ptrOff_eq i
    }
    · have value := zero.bool outside
      exact ⟨value, fun mask => by cases mask <;> simp [getBoolMasked, value]⟩
    · have value := zero.uint8 outside
      exact ⟨value, fun mask => by simp [getUInt8Masked, value]⟩
    · have value := zero.uint16 outside
      exact ⟨value, fun mask => by simp [getUInt16Masked, value]⟩
    · have value := zero.uint32 outside
      exact ⟨value, fun mask => by simp [getUInt32Masked, value]⟩
    · have value := zero.uint64 outside
      exact ⟨value, fun mask => by simp [getUInt64Masked, value]⟩
    · have value := zero.uint8 outside
      exact ⟨by rw [getInt8, value]; rfl, fun mask => by simp [getInt8Masked, value]⟩
    · have value := zero.uint16 outside
      exact ⟨by rw [getInt16, value]; rfl, fun mask => by simp [getInt16Masked, value]⟩
    · have value := zero.uint32 outside
      exact ⟨by rw [getInt32, value]; rfl, fun mask => by simp [getInt32Masked, value]⟩
    · have value := zero.uint64 outside
      exact ⟨by rw [getInt64, value]; rfl, fun mask => by simp [getInt64Masked, value]⟩

/-- One struct of one data word, holding 5, at the end of its segment. -/
def lastStruct : Message where
  segments := [[0, 0, 0, 0, 1, 0, 0, 0, 5, 0, 0, 0, 0, 0, 0, 0]]

/-- Witness: a struct at the end of its segment. -/
theorem reads_defaults_iff_lastStruct
    : getUInt8 (readStruct (getRoot lastStruct)) 0 = 5
      ∧ (readStruct (getRoot lastStruct)).ReadsDefaults := by
  refine ⟨by decide, (reads_defaults_iff (.lenient _)).mpr ?_⟩
  have reader : readStruct (getRoot lastStruct)
      = { msg := lastStruct, seg := 0, dataOff := 1, dataWords := 1, ptrOff := 2,
          ptrCount := 0 } := by
    decide
  rw [reader]
  intro k after
  by_cases inside : k < 8
  · simp only at after
    have positions : ∀ k < 8, 1 ≤ k → readByte lastStruct 0 (8 + k) = 0 := by decide
    exact positions k inside (by omega)
  · have past : [(0 : UInt8), 0, 0, 0, 1, 0, 0, 0, 5, 0, 0, 0, 0, 0, 0, 0].length ≤ 8 + k := by
      simp only [List.length_cons, List.length_nil]
      omega
    exact List.getD_eq_default _ _ past

/-- A root struct with one null pointer. -/
def nullChild : Message where
  segments := [[0, 0, 0, 0, 0, 0, 1, 0, 0, 0, 0, 0, 0, 0, 0, 0]]

/-- The reader for the null pointer reads the root pointer as its data. -/
theorem null_reader_reads_root_pointer
    : isNullPointer (getPointer (readStruct (getRoot nullChild)) 0) = true
      ∧ ∃ r : StructReader, r.Obtained
          ∧ r = readStruct (getPointer (readStruct (getRoot nullChild)) 0)
          ∧ readStructChecked (getPointer (readStruct (getRoot nullChild)) 0) = .ok r
          ∧ r.dataWords = 0 ∧ getUInt8 r 6 = 1 ∧ ¬ r.ReadsDefaults := by
  refine ⟨by decide, _, .lenient _, rfl, by decide, by decide, by decide, ?_⟩
  intro defaults
  have outside : (readStruct (getPointer (readStruct (getRoot nullChild)) 0)).Outside 1 6 := by
    unfold StructReader.Outside
    decide
  exact absurd (defaults.uint8 6 outside).1 (by decide)

end Capnp
