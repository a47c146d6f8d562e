import Capnp.Runtime.CheckedReaders
import Capnp.Runtime.FieldRuns

/-! The elements of lists that are built. The readers find the list that a pointer was
initialised with, and read its elements from their own bits of it; setting elements one by
one is assigning to an array.
-/

namespace Capnp

open BitFields MessageBuilder

/-- The list as a reader of the message that is built has it. -/
def ListBuilder.reader (lb : ListBuilder) (st : MessageBuilder) : ListPointer where
  msg := buildMessage st
  seg := lb.seg
  startWord := lb.startWord
  elemSize := lb.elemSize
  elemCount := lb.elemCount
  structDataWords := lb.structDataWords
  structPtrCount := lb.structPtrCount
  inlineComposite := lb.inlineComposite

/-- A list is given as many words as its elements take. -/
theorem initListWords_eq {elemSize : Nat} (plain : elemSize < elemSizeInlineComposite)
    (elemCount : Nat) : initListWords elemSize elemCount = listDataWords elemSize elemCount := by
  have seven : elemSizeInlineComposite = 7 := rfl
  have five : elemSizeEightBytes = 5 := rfl
  have six : elemSizePointer = 6 := rfl
  have zero : elemSizeVoid = 0 := rfl
  have one : elemSizeBit = 1 := rfl
  have two : elemSizeByte = 2 := rfl
  have three : elemSizeTwoBytes = 3 := rfl
  have four : elemSizeFourBytes = 4 := rfl
  unfold initListWords listDataWords
  split_ifs <;> first | rfl | omega

-----------------------------------------------------------------------------------------
-- Lists that are found
-----------------------------------------------------------------------------------------

section Found

variable {st after : MessageBuilder} {p : AnyPointerBuilder} {elemSize elemCount : Nat}

/-- The words of a new list are allocated. -/
theorem initListPointer_owned (valid : st.Valid) (p : AnyPointerBuilder)
    (plain : elemSize < elemSizeInlineComposite) (elemCount : Nat)
    : (initListPointer p elemSize elemCount st).1.startWord + listDataWords elemSize elemCount
      ≤ (initListPointer p elemSize elemCount st).2.used
          (initListPointer p elemSize elemCount st).1.seg := by
  rw [← initListWords_eq plain]
  exact initObject_owned valid p (initListWords elemSize elemCount)
    (fun offset => encodeListPointer offset elemSize elemCount)

/-- The list that a pointer was initialised with is found and holds what it was filled with. -/
structure ListFound (p : AnyPointerBuilder) (lb : ListBuilder) (filled later : MessageBuilder)
    : Prop where
  decoded : decodeListPtr (p.reader later) = some (lb.reader later)
  checked
    : decodeListPtrChecked (p.reader later)
      = acceptedAt later (lb.seg, lb.startWord) (some (lb.reader later))
  room : lb.startWord + listDataWords lb.elemSize lb.elemCount ≤ later.used lb.seg
  kept
    : ∀ cell, Behind lb.seg lb.startWord cell → store.owned filled cell →
        later.wordAt cell = filled.wordAt cell

/-- A new list is found behind its pointer, whatever is filled into it. -/
theorem initListPointer_settles (valid : st.Valid) (owned : store.owned st p.cell)
    (plain : elemSize < elemSizeInlineComposite) (small : elemCount < 2 ^ 29)
    (fill
      : Writes
          (Behind (initListPointer p elemSize elemCount st).1.seg
            (initListPointer p elemSize elemCount st).1.startWord)
          (initListPointer p elemSize elemCount st).2 after)
    : store.Settles (fun cell => cell = p.cell) st after
        (fun later =>
          later.Valid → later.Addressable →
            ListFound p (initListPointer p elemSize elemCount st).1 after later) := by
  intro later effect valid' addressable
  have places := initObject_places valid p (initListWords elemSize elemCount)
    (fun offset => encodeListPointer offset elemSize elemCount)
  obtain ⟨points, inside⟩ := initObject_settles valid owned (initListWords elemSize elemCount)
    (fun offset => encodeListPointer offset elemSize elemCount) fill later effect
  have room
      : (initListPointer p elemSize elemCount st).1.startWord + listDataWords elemSize elemCount
        ≤ later.used (initListPointer p elemSize elemCount st).1.seg := by
    rw [← initListWords_eq plain]
    exact inside
  obtain ⟨_, rfl, decoded, checked⟩ := decodeListPtr_of_pointsTo points valid' addressable
    room plain small
  refine ⟨decoded, checked, room, fun cell behind ownedCell => ?_⟩
  exact effect.kept cell ownedCell (fun both => places.not_behind both.1 behind)

/-- The readers of its kind have the elements of a list that is found. -/
theorem ListFound.reads {lb : ListBuilder} {filled later : MessageBuilder}
    (found : ListFound p lb filled later) (k : ListKind) (plain : lb.inlineComposite = false)
    (size : lb.elemSize = k.elemSize)
    : k.read (p.reader later) = k.elements (lb.reader later)
      ∧ k.readChecked (p.reader later)
        = acceptedAt later (lb.seg, lb.startWord) (k.elements (lb.reader later))
      ∧ k.elements (lb.reader later)
        = (List.range lb.elemCount).map (k.element (lb.reader later)) := by
  have kind : ¬ k.Mismatches (lb.reader later) := by
    simp only [ListKind.Mismatches, ListBuilder.reader, plain, size, bne_self_eq_false,
      Bool.or_self, Bool.false_eq_true, not_false_eq_true]
  refine ⟨?_, ?_, if_neg kind⟩
  · rw [ListKind.read_eq, found.decoded]
  · rw [ListKind.readChecked_eq, found.checked]
    unfold acceptedAt
    split_ifs
    · exact if_neg kind
    · rfl

end Found

-----------------------------------------------------------------------------------------
-- Elements as bits
-----------------------------------------------------------------------------------------

namespace Scalar

/-- The element size of the lists of a scalar. -/
def elemSize (s : Scalar) : Nat :=
  (ListKind.scalar s).elemSize

/-- The values that the bits stand for that a value is stored as. -/
def stored (s : Scalar) (v : s.Value) : s.Value :=
  s.ofBits (s.toBits v)

/-- Scalars are no structs. -/
theorem elemSize_lt (s : Scalar) : s.elemSize < elemSizeInlineComposite := by
  cases s <;> decide

/-- Scalars are no pointers. -/
theorem elemSize_ne_pointer (s : Scalar) : s.elemSize ≠ elemSizePointer := by
  cases s <;> decide

/-- The elements lie one behind the other. -/
theorem bitOffset_elementOffset (s : Scalar) (i : Nat)
    : s.bitOffset (s.elementOffset i) = i * s.width := by
  cases s <;> simp only [bitOffset, elementOffset, width] <;> omega

/-- The bits of an element are in the words of its list. -/
theorem element_fits (s : Scalar) {elemCount i : Nat} (inside : i < elemCount)
    : (i + 1) * s.width ≤ listDataWords s.elemSize elemCount * 64 := by
  have upTo : (i + 1) * s.width ≤ elemCount * s.width := Nat.mul_le_mul_right _ inside
  apply Nat.le_trans upTo
  cases s with
  | bool =>
      show elemCount * 1 ≤ ((elemCount + 7) / 8 + 7) / 8 * 64
      omega
  | int8 | uint8 =>
      show elemCount * 8 ≤ (elemCount + 7) / 8 * 64
      omega
  | int16 | uint16 =>
      show elemCount * 16 ≤ (elemCount * 2 + 7) / 8 * 64
      omega
  | int32 | uint32 | float32 =>
      show elemCount * 32 ≤ (elemCount * 4 + 7) / 8 * 64
      omega
  | int64 | uint64 | float64 => exact Nat.le_refl _

/-- The elements of a list, as the bits that are stored. -/
def listBits (s : Scalar) (lb : ListBuilder) (st : MessageBuilder) : List (BitVec s.width) :=
  (List.range lb.elemCount).map
    (fun i => slice (st.bitAt lb.seg) (lb.startWord * 64 + i * s.width) s.width)

/-- The bits of a list by those of its elements. -/
theorem listBits_congr (s : Scalar) {lb : ListBuilder} {st st' : MessageBuilder}
    (same
      : ∀ i < lb.elemCount, ∀ j < s.width,
          st.bitAt lb.seg (lb.startWord * 64 + i * s.width + j)
          = st'.bitAt lb.seg (lb.startWord * 64 + i * s.width + j))
    : s.listBits lb st = s.listBits lb st' :=
  List.map_congr_left (fun i inside => slice_congr (same i (List.mem_range.mp inside)))

/-- A reader of the list has the values of these bits. -/
theorem elements_reader (s : Scalar) {lb : ListBuilder} {st : MessageBuilder} (valid : st.Valid)
    (plain : lb.inlineComposite = false) (size : lb.elemSize = s.elemSize)
    (room : lb.startWord + listDataWords lb.elemSize lb.elemCount ≤ st.used lb.seg)
    : (ListKind.scalar s).elements (lb.reader st) = (s.listBits lb st).map s.ofBits := by
  have kind : ¬ (ListKind.scalar s).Mismatches (lb.reader st) := by
    simp only [ListKind.Mismatches, ListBuilder.reader, plain, size, Scalar.elemSize,
      bne_self_eq_false, Bool.or_self, Bool.false_eq_true, not_false_eq_true]
  rw [ListKind.elements, if_neg kind, listBits, List.map_map]
  apply List.map_congr_left
  intro i inside
  have fits := s.element_fits (List.mem_range.mp inside)
  rw [size] at room
  show s.get (lb.reader st).asStruct (s.elementOffset i) none = s.ofBits (slice _ _ _)
  rw [Scalar.get_eq, Option.getD_none, BitVec.xor_zero, Scalar.read_eq_slice,
    s.bitOffset_elementOffset]
  refine congrArg s.ofBits (slice_congr (fun j inElement => ?_))
  have fits : (i + 1) * s.width ≤ listDataWords s.elemSize lb.elemCount * 64 := fits
  rw [Nat.add_mul, Nat.one_mul] at fits
  have owned : lb.startWord * 64 + i * s.width + j < st.used lb.seg * 64 := by omega
  exact getBit_buildMessage valid owned

/-- What a list holds that was filled is what its readers find. -/
theorem readList_of_found (s : Scalar) {p : AnyPointerBuilder} {lb : ListBuilder}
    {filled later : MessageBuilder} (found : ListFound p lb filled later) (valid : later.Valid)
    (plain : lb.inlineComposite = false) (size : lb.elemSize = s.elemSize)
    (allocated : lb.startWord + listDataWords lb.elemSize lb.elemCount ≤ filled.used lb.seg)
    : (ListKind.scalar s).read (p.reader later) = (s.listBits lb filled).map s.ofBits
      ∧ (ListKind.scalar s).readChecked (p.reader later)
        = acceptedAt later (lb.seg, lb.startWord) ((s.listBits lb filled).map s.ofBits) := by
  have bits : s.listBits lb filled = s.listBits lb later := by
    apply s.listBits_congr
    intro i inside j inElement
    have fits := s.element_fits inside
    rw [Nat.add_mul, Nat.one_mul] at fits
    rw [size] at allocated
    refine (bitAt_of_wordAt (found.kept _ ⟨rfl, ?_⟩ ?_)).symm
    · show lb.startWord ≤ (lb.startWord * 64 + i * s.width + j) / 64
      omega
    · show (lb.startWord * 64 + i * s.width + j) / 64 < filled.used lb.seg
      omega
  obtain ⟨read, checked, -⟩ := found.reads (.scalar s) plain size
  rw [bits, ← s.elements_reader valid plain size found.room]
  exact ⟨read, checked⟩

end Scalar

-----------------------------------------------------------------------------------------
-- Setting elements
-----------------------------------------------------------------------------------------

/-- The setters of elements do nothing past the end and in lists of another size. -/
def listSetWith (elemSize : Nat) (write : ListBuilder → Nat → MessageBuilder → MessageBuilder)
    (l : ListBuilder) (i : Nat) (st : MessageBuilder) : MessageBuilder :=
  if i < l.elemCount && l.elemSize == elemSize then write l i st else st

def listSetBool (l : ListBuilder) (i : Nat) (v : Bool) : MessageBuilder → MessageBuilder :=
  listSetWith elemSizeBit (fun l i => setBitB l.seg (l.startWord * 64 + i) v) l i

def listSetUInt8 (l : ListBuilder) (i : Nat) (v : UInt8) : MessageBuilder → MessageBuilder :=
  listSetWith elemSizeByte (fun l i => writeByte l.seg (l.startWord * 8 + i) v) l i

def listSetUInt16 (l : ListBuilder) (i : Nat) (v : UInt16) : MessageBuilder → MessageBuilder :=
  listSetWith elemSizeTwoBytes (fun l i => writeUInt16LE l.seg (l.startWord * 8 + i * 2) v) l i

def listSetUInt32 (l : ListBuilder) (i : Nat) (v : UInt32) : MessageBuilder → MessageBuilder :=
  listSetWith elemSizeFourBytes (fun l i => writeUInt32LE l.seg (l.startWord * 8 + i * 4) v) l i

def listSetUInt64 (l : ListBuilder) (i : Nat) (v : UInt64) : MessageBuilder → MessageBuilder :=
  listSetWith elemSizeEightBytes (fun l i => writeUInt64LE l.seg (l.startWord * 8 + i * 8) v) l i

def listSetInt8 (l : ListBuilder) (i : Nat) (v : Int8) : MessageBuilder → MessageBuilder :=
  listSetUInt8 l i v.toUInt8

def listSetInt16 (l : ListBuilder) (i : Nat) (v : Int16) : MessageBuilder → MessageBuilder :=
  listSetUInt16 l i v.toUInt16

def listSetInt32 (l : ListBuilder) (i : Nat) (v : Int32) : MessageBuilder → MessageBuilder :=
  listSetUInt32 l i v.toUInt32

def listSetInt64 (l : ListBuilder) (i : Nat) (v : Int64) : MessageBuilder → MessageBuilder :=
  listSetUInt64 l i v.toUInt64

def listSetFloat32 (l : ListBuilder) (i : Nat) (v : Float) : MessageBuilder → MessageBuilder :=
  listSetUInt32 l i (float32Bits v)

def listSetFloat64 (l : ListBuilder) (i : Nat) (v : Float) : MessageBuilder → MessageBuilder :=
  listSetUInt64 l i v.toBits

/-- The list as the data of a struct, whose setters write its elements. -/
def ListBuilder.asStruct (l : ListBuilder) : StructBuilder where
  seg := l.seg
  dataOff := l.startWord
  dataWords := listDataWords l.elemSize l.elemCount
  ptrOff := l.startWord
  ptrCount := 0

namespace Scalar

def listSet (s : Scalar) (l : ListBuilder) (i : Nat) (v : s.Value)
    : MessageBuilder → MessageBuilder :=
  match s with
  | .bool => listSetBool l i v
  | .int8 => listSetInt8 l i v
  | .uint8 => listSetUInt8 l i v
  | .int16 => listSetInt16 l i v
  | .uint16 => listSetUInt16 l i v
  | .int32 => listSetInt32 l i v
  | .uint32 => listSetUInt32 l i v
  | .int64 => listSetInt64 l i v
  | .uint64 => listSetUInt64 l i v
  | .float32 => listSetFloat32 l i v
  | .float64 => listSetFloat64 l i v

/-- The element's setter is the one of a field of the list's data. -/
def elementWrite (s : Scalar) (i : Nat) (v : s.Value) : FieldWrite where
  scalar := s
  offset := s.elementOffset i
  mask := none
  value := v

variable {s : Scalar} {l : ListBuilder} {st : MessageBuilder}

/-- Setting an element sets a field of the list's data, if it is there. -/
theorem listSet_eq (l : ListBuilder) (i : Nat) (v : s.Value) (st : MessageBuilder)
    : s.listSet l i v st
      = if i < l.elemCount && l.elemSize == s.elemSize then
          (s.elementWrite i v).apply l.asStruct st
        else st := by
  cases s <;> rfl

/-- An element that is there fits into the data. -/
theorem elementWrite_fits (size : l.elemSize = s.elemSize) {i : Nat} (inside : i < l.elemCount)
    (v : s.Value) : (s.elementWrite i v).Fits l.asStruct.dataWords := by
  have fits := s.element_fits inside
  show s.bitOffset (s.elementOffset i) + s.width ≤ listDataWords l.elemSize l.elemCount * 64
  rwa [bitOffset_elementOffset, size, ← Nat.succ_mul]

/-- Setting an element writes into the data only. -/
theorem listSet_writes (valid : st.Valid) (i : Nat) (v : s.Value)
    : Writes l.asStruct.DataCell st (s.listSet l i v st) := by
  rw [listSet_eq]
  split_ifs with passes
  · rw [Bool.and_eq_true, decide_eq_true_iff, beq_iff_eq] at passes
    exact FieldWrite.writes valid (elementWrite_fits passes.2 passes.1 v)
  · exact ⟨valid, .refl _ _⟩

/-- Setting an element is assigning to an array, also past its end. -/
theorem listBits_listSet (valid : st.Valid) (size : l.elemSize = s.elemSize)
    (allocated : l.startWord + listDataWords l.elemSize l.elemCount ≤ st.used l.seg) (i : Nat)
    (v : s.Value) : s.listBits l (s.listSet l i v st) = (s.listBits l st).set i (s.toBits v) := by
  rw [listSet_eq]
  split_ifs with passes
  · rw [Bool.and_eq_true, decide_eq_true_iff, beq_iff_eq] at passes
    have written := FieldWrite.dataBits_apply valid allocated (elementWrite_fits size passes.1 v)
    have base : (s.elementWrite i v).bits.base = i * s.width := s.bitOffset_elementOffset i
    have element (bits : MessageBuilder) (j : Nat)
        : slice (bits.bitAt l.seg) (l.startWord * 64 + j * s.width) s.width
          = slice (l.asStruct.dataBits bits) (j * s.width) s.width :=
      slice_congr (fun k _ => by rw [StructBuilder.dataBits, Nat.add_assoc]; rfl)
    apply List.ext_getElem
    · simp [listBits]
    · intro j left right
      simp only [listBits, List.getElem_map, List.getElem_range, List.getElem_set]
      rw [element, element, written, base]
      split_ifs with same
      · subst same
        have value : (s.elementWrite i v).bits.value = s.toBits v := BitVec.xor_zero
        rw [value]
        exact slice_update _ _ _
      · apply slice_update_of_apart
        show j * s.width + s.width ≤ i * s.width ∨ i * s.width + s.width ≤ j * s.width
        rcases Nat.lt_or_gt_of_ne same with before | behind
        · have apart : (i + 1) * s.width ≤ j * s.width := Nat.mul_le_mul_right _ before
          rw [Nat.add_mul, Nat.one_mul] at apart
          exact .inr apart
        · have apart : (j + 1) * s.width ≤ i * s.width := Nat.mul_le_mul_right _ behind
          rw [Nat.add_mul, Nat.one_mul] at apart
          exact .inl apart
  · have beyond : (s.listBits l st).length ≤ i := by
      simp only [Bool.and_eq_true, decide_eq_true_iff, beq_iff_eq, size, and_true] at passes
      simpa [listBits] using passes
    rw [List.set_eq_of_length_le beyond]

/-- A run of setters, by induction on it. -/
theorem listSets_refine (valid : st.Valid) (size : l.elemSize = s.elemSize)
    (allocated : l.startWord + listDataWords l.elemSize l.elemCount ≤ st.used l.seg)
    (sets : List (Nat × s.Value))
    : Writes l.asStruct.DataCell st (sets.foldl (fun st set => s.listSet l set.1 set.2 st) st)
      ∧ s.listBits l (sets.foldl (fun st set => s.listSet l set.1 set.2 st) st)
        = sets.foldl (fun bits set => bits.set set.1 (s.toBits set.2)) (s.listBits l st) := by
  induction sets generalizing st with
  | nil => exact ⟨⟨valid, .refl _ _⟩, rfl⟩
  | cons set rest ih =>
      have first := listSet_writes (l := l) valid set.1 set.2
      have bits := listBits_listSet valid size allocated set.1 set.2
      obtain ⟨remaining, refines⟩ := ih first.valid (used_le_of_effect first.effect allocated)
      refine ⟨first.trans remaining (fun _ _ => id), ?_⟩
      rw [List.foldl_cons, refines, bits]
      rfl

end Scalar

end Capnp
