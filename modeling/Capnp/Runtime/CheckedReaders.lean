import Capnp.Runtime.ListReaders

/-! What the checked readers accept. It lies in its segment, so that every element and every
pointer of it can be read within the message, and the readers without checks read the same.
-/

namespace Capnp

open ByteString

/-- The words of the elements. -/
def ListPointer.words (d : ListPointer) : Nat :=
  if d.inlineComposite then d.elemCount * (d.structDataWords + d.structPtrCount)
  else listDataWords d.elemSize d.elemCount

def ListPointer.Inside (d : ListPointer) : Prop :=
  d.startWord + d.words ≤ segmentWordCount d.msg d.seg

/-- The words of a struct, its pointers behind its data, are in its segment. -/
structure StructReader.Inside (r : StructReader) : Prop where
  layout : r.dataOff + r.dataWords ≤ r.ptrOff ∨ r.dataWords = 0
  words : r.ptrOff + r.ptrCount ≤ segmentWordCount r.msg r.seg

-----------------------------------------------------------------------------------------
-- Words in a segment
-----------------------------------------------------------------------------------------

/-- A word of a segment passes the check of words. -/
theorem readWordChecked_of_lt {msg : Message} {seg word : Nat}
    (inside : word < segmentWordCount msg seg)
    : readWordChecked msg seg word = .ok (readWord msg seg word) := by
  have bytes : word * 8 + 8 ≤ (getSegment msg seg).length := by
    unfold segmentWordCount at inside
    omega
  have present : ¬ seg ≥ msg.segments.length := by
    intro absent
    have none : getSegment msg seg = [] := List.getD_eq_default _ _ absent
    rw [none] at bytes
    exact absurd bytes (by simp)
  rw [readWordChecked, if_neg present, if_pos bytes]

/-- The pointers of a struct inside its segment can be read. -/
theorem StructReader.Inside.readWordChecked_pointer {r : StructReader} (inside : r.Inside) {i : Nat}
    (present : i < r.ptrCount)
    : readWordChecked (getPointer r i).msg (getPointer r i).seg (getPointer r i).word
      = .ok (readWord (getPointer r i).msg (getPointer r i).seg (getPointer r i).word) := by
  have words := inside.words
  exact readWordChecked_of_lt (Nat.lt_of_lt_of_le (Nat.add_lt_add_left present _) words)

-----------------------------------------------------------------------------------------
-- Structs
-----------------------------------------------------------------------------------------

/-- The empty struct is inside anything. -/
theorem emptyStruct_inside (msg : Message) (seg : Nat) : (emptyStruct msg seg).Inside :=
  ⟨.inr rfl, Nat.zero_le _⟩

/-- A struct that is accepted is the plain reader's, and inside its segment. -/
theorem readStructChecked_eq_ok {p : AnyPointer} {r : StructReader}
    (checked : readStructChecked p = .ok r) : readStruct p = r ∧ r.Inside := by
  obtain ⟨resolved, resolving, checked⟩ := bind_eq_ok_iff.mp checked
  have resolves := resolvePointerChecked_eq_ok resolving
  cases resolved with
  | none =>
      obtain rfl := Except.ok.inj checked
      exact ⟨by simp only [readStruct, decodeStructPtr, resolves], emptyStruct_inside ..⟩
  | some target =>
      obtain ⟨w, read, checked⟩ := bind_eq_ok_iff.mp checked
      obtain rfl := readWordChecked_eq_ok read
      split_ifs at checked with other fits
      obtain rfl := Except.ok.inj checked
      refine ⟨?_, .inl (Nat.le_refl _), ?_⟩
      · simp only [readStruct, decodeStructPtr, resolves, if_neg other]
      · rw [← Nat.add_assoc] at fits
        exact fits

-----------------------------------------------------------------------------------------
-- Lists
-----------------------------------------------------------------------------------------

/-- A list that is accepted is inside its segment. -/
theorem decodeListPtrChecked_inside {p : AnyPointer} {d : ListPointer}
    (checked : decodeListPtrChecked p = .ok (some d)) : d.Inside := by
  obtain ⟨resolved, resolving, checked⟩ := bind_eq_ok_iff.mp checked
  cases resolved with
  | none => cases checked
  | some r =>
      obtain ⟨w, read, checked⟩ := bind_eq_ok_iff.mp checked
      split_ifs at checked with other composite outside inside
      · obtain ⟨tag, readTag, checked⟩ := bind_eq_ok_iff.mp checked
        split_ifs at checked with noStruct overrun
        obtain rfl := Option.some.inj (Except.ok.inj checked)
        show r.targetWord + 1 + tagElemCount tag * (wordDataWords tag + wordPtrCount tag) ≤ _
        show _ ≤ segmentWordCount r.msg r.targetSeg
        omega
      · obtain rfl := Option.some.inj (Except.ok.inj checked)
        exact inside

/-- The words of a list have room for its elements. -/
theorem ListKind.width_mul_le {k : ListKind} {d : ListPointer} (same : ¬ k.Mismatches d)
    : d.elemCount * k.width ≤ d.words * 64 := by
  obtain ⟨plain, size⟩ : d.inlineComposite = false ∧ d.elemSize = k.elemSize := by
    simpa [ListKind.Mismatches] using same
  rw [ListPointer.words, plain, size, if_neg Bool.false_ne_true]
  cases k with
  | void => simp [ListKind.width]
  | pointer => exact Nat.le_refl _
  | scalar s =>
      cases s with
      | bool =>
          show d.elemCount * 1 ≤ ((d.elemCount + 7) / 8 + 7) / 8 * 64
          omega
      | int8 | uint8 =>
          show d.elemCount * 8 ≤ (d.elemCount + 7) / 8 * 64
          omega
      | int16 | uint16 =>
          show d.elemCount * 16 ≤ (d.elemCount * 2 + 7) / 8 * 64
          omega
      | int32 | uint32 | float32 =>
          show d.elemCount * 32 ≤ (d.elemCount * 4 + 7) / 8 * 64
          omega
      | int64 | uint64 | float64 => exact Nat.le_refl _

/-- The bits of every element are in the segment of a list that is. -/
theorem ListKind.element_inside {k : ListKind} {d : ListPointer} (same : ¬ k.Mismatches d)
    (inside : d.Inside) {i : Nat} (present : i < d.elemCount)
    : d.startWord * 64 + (i + 1) * k.width ≤ segmentWordCount d.msg d.seg * 64 := by
  have room := k.width_mul_le same
  have upTo : (i + 1) * k.width ≤ d.elemCount * k.width := Nat.mul_le_mul_right _ present
  have words : d.startWord + d.words ≤ segmentWordCount d.msg d.seg := inside
  omega

/-- Elements that are accepted are the plain reader's. -/
theorem ListKind.readChecked_eq_ok {k : ListKind} {p : AnyPointer} {vals : List k.Elem}
    (checked : k.readChecked p = .ok vals) : k.read p = vals := by
  rw [ListKind.readChecked_eq] at checked
  rw [ListKind.read_eq]
  cases list : decodeListPtrChecked p with
  | error message =>
      rw [list] at checked
      cases checked
  | ok found =>
      rw [list] at checked
      rw [(decodeListPtrChecked_eq_ok list).1]
      cases found with
      | none => exact Except.ok.inj checked
      | some d =>
          dsimp only at checked
          split_ifs at checked with other
          exact Except.ok.inj checked

/-- The elements of a list inside its segment are inside it. -/
theorem ListPointer.structReader_inside {d : ListPointer} (composite : d.inlineComposite = true)
    (inside : d.Inside) {i : Nat} (present : i < d.elemCount) : (d.structReader i).Inside := by
  have words : d.startWord + d.elemCount * (d.structDataWords + d.structPtrCount)
      ≤ segmentWordCount d.msg d.seg := by
    have words : d.startWord + d.words ≤ segmentWordCount d.msg d.seg := inside
    rwa [ListPointer.words, if_pos composite] at words
  have upTo
      : (i + 1) * (d.structDataWords + d.structPtrCount)
        ≤ d.elemCount * (d.structDataWords + d.structPtrCount) :=
    Nat.mul_le_mul_right _ present
  rw [Nat.add_mul, Nat.one_mul] at upTo
  refine ⟨.inl (Nat.le_refl _), ?_⟩
  simp only [ListPointer.structReader]
  split_ifs <;> omega

/-- Structs that are accepted are the plain reader's, and inside their segment. -/
theorem readListStructChecked_eq_ok {p : AnyPointer} {rs : List StructReader}
    (checked : readListStructChecked p = .ok rs)
    : readListStruct p = rs ∧ ∀ r ∈ rs, r.Inside := by
  obtain ⟨found, list, checked⟩ := bind_eq_ok_iff.mp checked
  have decoded := (decodeListPtrChecked_eq_ok list).1
  cases found with
  | none =>
      obtain rfl := Except.ok.inj checked
      exact ⟨by rw [readListStruct, decoded], fun r member => absurd member List.not_mem_nil⟩
  | some d =>
      dsimp only at checked
      split_ifs at checked with composite
      obtain rfl := Except.ok.inj checked
      refine ⟨?_, fun r member => ?_⟩
      · simp only [readListStruct, decoded, if_pos composite]
      · obtain ⟨i, present, rfl⟩ := List.mem_map.mp member
        exact ListPointer.structReader_inside composite (decodeListPtrChecked_inside list)
          (List.mem_range.mp present)

/-- A checked capability is the one that is read; a null pointer has capability zero. -/
theorem readCapabilityChecked_eq_ok {p : AnyPointer} {cap : UInt32}
    (checked : readCapabilityChecked p = .ok cap) : readCapability p = cap := by
  obtain ⟨w, read, checked⟩ := bind_eq_ok_iff.mp checked
  obtain rfl := readWordChecked_eq_ok read
  split_ifs at checked with null capability
  · obtain rfl := Except.ok.inj checked
    have null : readWord p.msg p.seg p.word = 0 := by simpa using null
    rw [readCapability, null]
    rfl
  · rw [readCapability]
    simp only [capability, if_true]
    exact Except.ok.inj checked

/-- What a checked reader accepts is read alike without the checks, and lies in its segment: the
bits of every element of a list, and the words of a struct, whose pointers pass the check of
words. Data and text, copied or viewed, are read alike, too.
-/
theorem checkedReaders_agree (p : AnyPointer)
    : (∀ (k : ListKind) (vals : List k.Elem), k.readChecked p = .ok vals → k.read p = vals)
      ∧ (∀ rs, readListStructChecked p = .ok rs → readListStruct p = rs ∧ ∀ r ∈ rs, r.Inside)
      ∧ (∀ r, readStructChecked p = .ok r → readStruct p = r ∧ r.Inside)
      ∧ (∀ cap, readCapabilityChecked p = .ok cap → readCapability p = cap)
      ∧ (∀ d, decodeListPtrChecked p = .ok (some d) → ∀ k : ListKind, ¬ k.Mismatches d →
          ∀ i < d.elemCount,
            d.startWord * 64 + (i + 1) * k.width ≤ segmentWordCount d.msg d.seg * 64)
      ∧ (∀ r : StructReader, r.Inside → ∀ i < r.ptrCount,
          readWordChecked (getPointer r i).msg (getPointer r i).seg (getPointer r i).word
            = .ok (readWord (getPointer r i).msg (getPointer r i).seg (getPointer r i).word))
      ∧ ByteReadersAgree p :=
  ⟨fun _ _ => ListKind.readChecked_eq_ok, fun _ => readListStructChecked_eq_ok,
    fun _ => readStructChecked_eq_ok, fun _ => readCapabilityChecked_eq_ok,
    fun _ list _ same _ present =>
      ListKind.element_inside same (decodeListPtrChecked_inside list) present,
    fun _ inside _ present => inside.readWordChecked_pointer present, byteReaders_agree p⟩

end Capnp
