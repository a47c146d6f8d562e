import Capnp.Runtime.FreshObjects

/-! New objects are read as they were set. A struct or a list that a pointer was initialised
with is found behind it, zero but for what was set in it, whatever else was written since.
-/

namespace Capnp

open BitFields MessageBuilder

/-- The words where later writes leave alone what was put into the words `own` of a new object:
those allocated before it but for its pointer's, and the rest of the object.
-/
def Elsewhere (st : MessageBuilder) (p : AnyPointerBuilder) (place : Nat × Nat)
    (own : Nat × Nat → Prop) (cell : Nat × Nat) : Prop :=
  ((store.owned st cell ∧ cell ≠ p.cell) ∨ Behind place.1 place.2 cell) ∧ ¬ own cell

section Structs

variable {st : MessageBuilder} {p : AnyPointerBuilder} {dataWords ptrCount : Nat}

/-- The bits of a new struct are zero. -/
theorem dataBits_initStructPointer (valid : st.Valid) (clean : st.Clean)
    (owned : store.owned st p.cell) (k : Nat)
    : (initStructPointer p dataWords ptrCount st).1.dataBits
        (initStructPointer p dataWords ptrCount st).2 k = false := by
  have zero := (initObject_clean valid clean owned (dataWords + ptrCount)
    (fun offset => encodeStructPointer offset dataWords ptrCount)).2
  refine bitAt_of_zero (zero _ ⟨rfl, ?_⟩)
  show (initObject p (dataWords + ptrCount)
    (fun offset => encodeStructPointer offset dataWords ptrCount) st).1.2 ≤ _
  have start : (initObject p (dataWords + ptrCount)
      (fun offset => encodeStructPointer offset dataWords ptrCount) st).1.2 * 64
    ≤ (initObject p (dataWords + ptrCount)
      (fun offset => encodeStructPointer offset dataWords ptrCount) st).1.2 * 64 + k :=
    Nat.le_add_right ..
  exact (Nat.le_div_iff_mul_le (by decide)).mpr start

/-- The pointers of a new struct that are not set since are null. -/
theorem newStruct_pointer_null (valid : st.Valid) (clean : st.Clean)
    (owned : store.owned st p.cell)
    {later : MessageBuilder} (valid' : later.Valid) {written : Nat × Nat → Prop}
    (effect : store.Effect written (initStructPointer p dataWords ptrCount st).2 later)
    {i : Nat} (inside : i < ptrCount)
    (unset
      : ¬ written (getPointerBuilder (initStructPointer p dataWords ptrCount st).1 i).cell)
    : isNullPointer (getPointer ((initStructPointer p dataWords ptrCount st).1.reader later) i)
      = true := by
  let encode (offset : Int) : UInt64 := encodeStructPointer offset dataWords ptrCount
  let place := (initObject p (dataWords + ptrCount) encode st).1
  let b := (initStructPointer p dataWords ptrCount st).1
  have start : b.ptrOff = place.2 + dataWords := rfl
  have room : place.2 + (dataWords + ptrCount)
      ≤ (initStructPointer p dataWords ptrCount st).2.used b.seg :=
    initObject_owned valid p (dataWords + ptrCount) encode
  have ownedPointer : store.owned (initStructPointer p dataWords ptrCount st).2
      (b.seg, b.ptrOff + i) := by
    show b.ptrOff + i < (initStructPointer p dataWords ptrCount st).2.used b.seg
    omega
  have behind : Behind place.1 place.2 (b.seg, b.ptrOff + i) := by
    refine ⟨rfl, ?_⟩
    show place.2 ≤ b.ptrOff + i
    omega
  have zero := (initObject_clean valid clean owned (dataWords + ptrCount) encode).2 _ behind
  have kept : later.wordAt (b.seg, b.ptrOff + i) = wordBytes 0 :=
    (effect.kept _ ownedPointer unset).trans zero
  have word := readWord_of_wordAt valid' (effect.grows _ ownedPointer) kept
  show (readWord (buildMessage later) b.seg (b.ptrOff + i) == 0) = true
  rw [word]
  rfl

/-- The words of a new struct that must be left alone: its data, and the pointers in `unset`. -/
def StructBuilder.Left (b : StructBuilder) (unset : Nat → Prop) (cell : Nat × Nat) : Prop :=
  b.DataCell cell ∨ ∃ i < b.ptrCount, unset i ∧ cell = (getPointerBuilder b i).cell

/-- A new struct that is not empty is found behind its pointer, also by the checked reader. Each
of its fields reads as it was set, or as zero bits, and each pointer not set since is null.
-/
theorem newStruct_reads (valid : st.Valid) (clean : st.Clean) (owned : store.owned st p.cell)
    (some : 0 < dataWords + ptrCount) (smallData : dataWords < 2 ^ 16)
    (smallCount : ptrCount < 2 ^ 16)
    {writes : List FieldWrite} (fits : ∀ write ∈ writes, write.Fits dataWords)
    (unset : Nat → Prop)
    : let b := (initStructPointer p dataWords ptrCount st).1
      ∀ later : MessageBuilder,
        store.Effect (Elsewhere st p (b.seg, b.dataOff) (b.Left unset))
            (writes.foldl (FieldWrite.apply b) (initStructPointer p dataWords ptrCount st).2)
            later →
          later.Valid → later.Addressable →
            readStruct (p.reader later) = b.reader later
            ∧ readStructChecked (p.reader later) = .ok (b.reader later)
            ∧ (∀ (s : Scalar) (offset : Nat) (mask : Option (BitVec s.width)),
                s.bitOffset offset + s.width ≤ dataWords * 64 →
                  s.get (readStruct (p.reader later)) offset mask
                    = s.ofBits
                        (slice (run (writes.map FieldWrite.bits) (fun _ => false))
                          (s.bitOffset offset) s.width ^^^ mask.getD 0#s.width))
            ∧ ∀ i < ptrCount, unset i →
                isNullPointer (getPointer (readStruct (p.reader later)) i) = true := by
  intro b later effect valid' addressable
  let words := dataWords + ptrCount
  let encode (offset : Int) : UInt64 := encodeStructPointer offset dataWords ptrCount
  let base := (initStructPointer p dataWords ptrCount st).2
  have places : Places (fun cell => cell = p.cell) st ((b.seg, b.dataOff), base) :=
    initObject_places valid p words encode
  have room : b.dataOff + words ≤ base.used b.seg := initObject_owned valid p words encode
  have allocated : b.dataOff + b.dataWords ≤ base.used b.seg := by
    show b.dataOff + dataWords ≤ base.used b.seg
    omega
  have wrote := (fieldWrites_refine places.writes.valid allocated fits).1
  have points : PointsTo later p (b.seg, b.dataOff) encode := by
    refine initObject_pointsTo valid owned words encode ((wrote.effect.widen ?_).trans effect ?_)
    · exact fun cell _ data => .inr ⟨data.1, data.2.1⟩
    · exact fun cell _ elsewhere => elsewhere.1
  have inside := used_le_of_effect effect (used_le_of_effect wrote.effect room)
  have found
      : decodeStructPtr (p.reader later) = Option.some (b.reader later)
        ∧ decodeStructPtrChecked (p.reader later) = .ok (b.reader later) := by
    rcases decodeStructPtr_of_pointsTo points valid' addressable inside smallData smallCount with
      ⟨_, rfl, decoded, checked⟩ | ⟨noData, noPointers, -⟩
    · refine ⟨decoded, checked.trans (if_pos ?_)⟩
      show b.dataOff < later.used b.seg
      have inside : b.dataOff + (dataWords + ptrCount) ≤ later.used b.seg := inside
      omega
    · omega
  have reader : readStruct (p.reader later) = b.reader later := by
    rw [readStruct, found.1]
  refine ⟨reader, found.2, fun s offset mask inField => ?_, fun i inside null => ?_⟩
  · have zero : b.dataBits base = fun _ => false :=
      funext (dataBits_initStructPointer valid clean owned)
    have outside (cell : Nat × Nat)
        (member : Elsewhere st p (b.seg, b.dataOff) (b.Left unset) cell)
        : ¬ b.DataCell cell :=
      fun data => member.2 (.inl data)
    rw [reader, s.get_of_fieldWrites places.writes.valid allocated fits valid' effect outside
      inField mask, zero]
  · have whole : store.Effect (fun cell => b.DataCell cell ∨ Elsewhere st p (b.seg, b.dataOff)
        (b.Left unset) cell) base later :=
      (wrote.effect.widen (fun _ _ => Or.inl)).trans effect (fun _ _ => Or.inr)
    rw [reader]
    refine newStruct_pointer_null valid clean owned valid' whole inside ?_
    rintro (data | elsewhere)
    · have past : b.ptrOff + i < b.dataOff + b.dataWords := data.2.2
      have start : b.ptrOff = b.dataOff + b.dataWords := rfl
      omega
    · exact elsewhere.2 (.inr ⟨i, inside, null, rfl⟩)

end Structs

/-- A struct at the root with a word of data and a pointer. -/
def wordAndPointer : StructBuilder × MessageBuilder :=
  initStructPointer getRootPointer 1 1 (initMessageBuilder 8)

/-- The struct with the number and the flag set in it. -/
def numbered : MessageBuilder :=
  numberAndFlag.foldl (FieldWrite.apply wordAndPointer.1) wordAndPointer.2

/-- Witness: it reads as the number and the flag that are set in it, and its pointer is null. -/
theorem newStruct_reads_numberAndFlag
    : readStructChecked (getRootPointer.reader numbered) = .ok (wordAndPointer.1.reader numbered)
      ∧ Scalar.uint16.get (readStruct (getRootPointer.reader numbered)) 0 none
        = Scalar.uint16.ofBits
            (slice (run (numberAndFlag.map FieldWrite.bits) (fun _ => false)) 0 16 ^^^ 0#16)
      ∧ isNullPointer (getPointer (readStruct (getRootPointer.reader numbered)) 0) = true := by
  have made : wordAndPointer.2.Valid :=
    initStructPointer_valid (initMessageBuilder_valid 8) getRootPointer 1 1
  have wrote := (fieldWrites_refine (b := wordAndPointer.1) made (by decide) numberAndFlag_fits).1
  have addressable : numbered.Addressable := addressable_of_usedWords (by decide) (by decide)
  obtain ⟨-, checked, fields, pointers⟩ := newStruct_reads (initMessageBuilder_valid 8)
    (initMessageBuilder_clean 8) root_owned (by decide) (by decide) (by decide) numberAndFlag_fits
    (fun _ => True) numbered (.refl _ _) wrote.valid addressable
  exact ⟨checked, fields .uint16 0 none (by decide), pointers 0 Nat.zero_lt_one trivial⟩

section Lists

variable {st : MessageBuilder} {p : AnyPointerBuilder} {s : Scalar} {elemCount : Nat}

/-- The elements of a new list are zero bits. -/
theorem listBits_initListPointer (valid : st.Valid) (clean : st.Clean)
    (owned : store.owned st p.cell) (s : Scalar) (elemCount : Nat)
    : s.listBits (initListPointer p s.elemSize elemCount st).1
        (initListPointer p s.elemSize elemCount st).2
      = List.replicate elemCount 0#s.width := by
  let lb := (initListPointer p s.elemSize elemCount st).1
  have zero := (initObject_clean valid clean owned (initListWords s.elemSize elemCount)
    (fun offset => encodeListPointer offset s.elemSize elemCount)).2
  have clear (k : Nat)
      : (initListPointer p s.elemSize elemCount st).2.bitAt lb.seg (lb.startWord * 64 + k)
        = false := by
    refine bitAt_of_zero (zero _ ⟨rfl, ?_⟩)
    exact (Nat.le_div_iff_mul_le (by decide)).mpr (Nat.le_add_right ..)
  rw [List.eq_replicate_iff]
  refine ⟨by simp [Scalar.listBits, initListPointer], fun bits member => ?_⟩
  obtain ⟨i, -, rfl⟩ := List.mem_map.mp member
  rw [eq_comm, eq_slice_iff]
  intro j inElement
  rw [Nat.add_assoc, clear]
  exact BitVec.getLsbD_zero

/-- Mapping a list that elements are set in, by induction on the settings. -/
theorem map_foldl_set {α β ι : Type*} (f : α → β) (value : ι → α) (place : ι → Nat)
    (sets : List ι) (items : List α)
    : (sets.foldl (fun items set => items.set (place set) (value set)) items).map f
      = sets.foldl (fun items set => items.set (place set) (f (value set))) (items.map f) := by
  induction sets generalizing items with
  | nil => rfl
  | cons set rest ih => rw [List.foldl_cons, ih, List.foldl_cons, List.map_set]

/-- A new list is found behind its pointer and reads as the array that the run of setters made
out of one of zeros. The checked reader refuses a list without words at the end of its segment.
-/
theorem newList_reads (valid : st.Valid) (clean : st.Clean) (owned : store.owned st p.cell)
    (s : Scalar) (small : elemCount < 2 ^ 29) (sets : List (Nat × s.Value))
    : let lb := (initListPointer p s.elemSize elemCount st).1
      let vals :=
        sets.foldl (fun vals set => vals.set set.1 (s.stored set.2))
          (List.replicate elemCount (s.ofBits 0#s.width))
      store.Settles (fun cell => cell = p.cell) st
        (sets.foldl (fun st set => s.listSet lb set.1 set.2 st)
          (initListPointer p s.elemSize elemCount st).2)
        (fun later =>
          later.Valid → later.Addressable →
            (ListKind.scalar s).read (p.reader later) = vals
            ∧ (ListKind.scalar s).readChecked (p.reader later)
              = acceptedAt later (lb.seg, lb.startWord) vals) := by
  intro lb vals
  have start := initListPointer_writes valid p s.elemSize elemCount
  have allocated := initListPointer_owned valid p s.elemSize_lt elemCount
  obtain ⟨wrote, refines⟩ :=
    Scalar.listSets_refine (s := s) (l := lb) start.valid rfl allocated sets
  have found := initListPointer_settles valid owned s.elemSize_lt small
    (wrote.widen (fun cell _ data => ⟨data.1, data.2.1⟩))
  have zero := listBits_initListPointer valid clean owned s elemCount
  have values
      : (s.listBits lb
            (sets.foldl (fun st set => s.listSet lb set.1 set.2 st)
              (initListPointer p s.elemSize elemCount st).2)).map s.ofBits
        = vals := by
    rw [refines, zero, map_foldl_set s.ofBits (fun set => s.toBits set.2) Prod.fst,
      List.map_replicate]
    rfl
  intro later effect valid' addressable
  rw [← values]
  exact s.readList_of_found (found later effect valid' addressable) valid' rfl rfl
    (used_le_of_effect wrote.effect allocated)

/-- A list of three bytes at the root, of which one is set and another is past the end. -/
def threeBytes : MessageBuilder :=
  let (list, st) := initListPointer getRootPointer elemSizeByte 3 (initMessageBuilder 8)
  Scalar.uint8.listSet list 3 (9 : UInt8) (Scalar.uint8.listSet list 1 (7 : UInt8) st)

/-- The list's builder is valid. -/
theorem threeBytes_valid : threeBytes.Valid := by
  let made := initListPointer getRootPointer elemSizeByte 3 (initMessageBuilder 8)
  have start : made.2.Valid := (initListPointer_writes (initMessageBuilder_valid 8) _ _ _).valid
  exact (Scalar.listSets_refine (s := .uint8) (l := made.1) start rfl (by decide)
    [(1, (7 : UInt8)), (3, (9 : UInt8))]).1.valid

/-- Witness: both readers find the byte that was set between two zeros. -/
theorem newList_reads_bytes
    : readListUInt8 (getRootPointer.reader threeBytes) = [0, 7, 0]
      ∧ readListUInt8Checked (getRootPointer.reader threeBytes) = .ok [0, 7, 0] :=
  newList_reads (initMessageBuilder_valid 8) (initMessageBuilder_clean 8) root_owned .uint8
    (by decide : 3 < 2 ^ 29) [(1, (7 : UInt8)), (3, (9 : UInt8))] threeBytes (.refl _ _)
    threeBytes_valid (addressable_of_usedWords (by decide) (by decide))

end Lists

end Capnp
