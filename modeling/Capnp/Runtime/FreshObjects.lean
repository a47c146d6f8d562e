import Capnp.Runtime.ListElements

/-! New objects are zero. A builder is clean when its free words are; writes to allocated words
keep it so, and allocating takes from the free ones.
-/

namespace Capnp

open BitFields MessageBuilder

/-- The bytes behind the used words are zero. -/
def MessageBuilder.Clean (st : MessageBuilder) : Prop :=
  ∀ seg k, st.used seg * 8 ≤ k → st.byteAt seg k = 0

/-- Zeros, also behind the end. -/
theorem getD_replicate_zero (count k : Nat) : (List.replicate count (0 : UInt8)).getD k 0 = 0 := by
  rw [List.getD_eq_getElem?_getD, List.getElem?_replicate]
  split_ifs <;> rfl

/-- A new builder is zero behind its first word. -/
theorem initMessageBuilder_clean (segmentWords : Nat) :
    (initMessageBuilder segmentWords).Clean := by
  intro seg k _
  cases seg with
  | zero => exact getD_replicate_zero _ k
  | succ seg => simp [MessageBuilder.byteAt, initMessageBuilder]

/-- A write to allocated bytes touches no free one. -/
theorem writeBytesAt_clean {st : MessageBuilder} (clean : st.Clean) {seg byteOff : Nat}
    {src : List UInt8} (owned : byteOff + src.length ≤ st.used seg * 8)
    : (writeBytesAt seg byteOff src st).Clean := by
  intro seg' k free
  have free : st.used seg' * 8 ≤ k := free
  rw [byteAt_writeBytesAt, if_neg]
  · exact clean seg' k free
  · rintro ⟨⟨rfl, low, high⟩, -⟩
    omega

/-- A word is written as its eight bytes. -/
theorem writeWordLE_eq_writeBytesAt (seg word : Nat) (w : UInt64)
    : writeWordLE seg word w = writeBytesAt seg (word * 8) (wordBytes w) := by
  have length : (wordBytes w).length = 8 := by simp [wordBytes]
  have bytes (ba : List UInt8)
      : setBytes ba (word * 8) 8 (fun i => (shr64 w (8 * i)).toUInt8)
        = setBytes ba (word * 8) 8 (fun i => (wordBytes w).getD i 0) := by
    apply List.foldl_ext
    intro out i inWord
    have inWord := List.mem_range.mp inWord
    simp [wordBytes, inWord]
  funext st
  rw [writeWordLE, writeBytesAt, length]
  exact congrArg (modifySegment seg · st) (funext bytes)

/-- Writing an allocated word leaves the unused ones zero. -/
theorem writeWordLE_clean {st : MessageBuilder} (clean : st.Clean) {cell : Nat × Nat}
    (owned : store.owned st cell) (w : UInt64) : (writeWordLE cell.1 cell.2 w st).Clean := by
  have inside : cell.2 < st.used cell.1 := owned
  rw [writeWordLE_eq_writeBytesAt]
  apply writeBytesAt_clean clean
  simp only [wordBytes, List.length_map, List.length_range]
  omega

/-- Setting a field touches no free byte. -/
theorem FieldWrite.clean {st : MessageBuilder} (clean : st.Clean) {b : StructBuilder}
    (allocated : b.dataOff + b.dataWords ≤ st.used b.seg) {write : FieldWrite}
    (fits : write.Fits b.dataWords) : (write.apply b st).Clean := by
  have fits : write.scalar.bitOffset write.offset + write.scalar.width ≤ b.dataWords * 64 := fits
  rw [FieldWrite.apply, Scalar.set_eq]
  obtain ⟨src, length, wrote⟩ := Scalar.exists_write_eq write.scalar b write.offset
    (write.scalar.toBits write.value ^^^ write.mask.getD 0#(write.scalar.width)) st
  have bytes : src.length = (write.scalar.width + 7) / 8 := length
  rw [wrote]
  apply writeBytesAt_clean clean
  omega

/-- So does setting elements of a list. -/
theorem Scalar.listSets_clean {st : MessageBuilder} {s : Scalar} {l : ListBuilder}
    (valid : st.Valid)
    (clean : st.Clean) (size : l.elemSize = s.elemSize)
    (allocated : l.startWord + listDataWords s.elemSize l.elemCount ≤ st.used l.seg)
    (sets : List (Nat × s.Value))
    : (sets.foldl (fun st set => s.listSet l set.1 set.2 st) st).Clean := by
  induction sets generalizing st with
  | nil => exact clean
  | cons set rest ih =>
      have writes := listSet_writes (l := l) valid set.1 set.2
      refine ih writes.valid ?_ (used_le_of_effect writes.effect allocated)
      show (s.listSet l set.1 set.2 st).Clean
      rw [listSet_eq]
      split_ifs with passes
      · rw [Bool.and_eq_true, decide_eq_true_iff, beq_iff_eq] at passes
        refine FieldWrite.clean clean ?_ (elementWrite_fits size passes.1 set.2)
        rw [← size] at allocated
        exact allocated
      · exact clean

/-- Allocating leaves the builder clean and gives words that are zero. -/
theorem allocWords_clean {st : MessageBuilder} (valid : st.Valid) (clean : st.Clean) (n : Nat)
    : (allocWords n st).2.Clean
      ∧ ∀ k, (allocWords n st).1.2 * 8 ≤ k →
          (allocWords n st).2.byteAt (allocWords n st).1.1 k = 0 := by
  by_cases room : fits st n = true
  · have used := used_allocWords_of_fits valid room
    rw [allocWords, if_pos room] at used ⊢
    refine ⟨fun seg k free => clean seg k ?_, fun k behind => clean _ k ?_⟩
    · rw [used] at free
      split_ifs at free with same
      · rw [same, valid.next]
        omega
      · exact free
    · rw [valid.next]
      exact behind
  · have used := used_allocWords_of_not_fits valid room
    have segment (seg k : Nat) (other : seg ≠ st.segments.length)
        : (allocWords n st).2.byteAt seg k = st.byteAt seg k := by
      rw [allocWords, if_neg room]
      simp only [MessageBuilder.byteAt, getD_concat, if_neg other]
    have last (k : Nat) : (allocWords n st).2.byteAt st.segments.length k = 0 := by
      rw [allocWords, if_neg room]
      simp only [MessageBuilder.byteAt, getD_concat, if_true]
      exact getD_replicate_zero _ k
    refine ⟨fun seg k free => ?_, fun k _ => ?_⟩
    · by_cases same : seg = st.segments.length
      · rw [same, last]
      · rw [used, if_neg same] at free
        rw [segment seg k same]
        exact clean seg k free
    · have here : (allocWords n st).1.1 = st.segments.length := by
        rw [allocWords, if_neg room]
      rw [here, last]

/-- Writing a word leaves the others. -/
theorem wordAt_writeWordLE_of_ne {st : MessageBuilder} (written : Nat × Nat) (w : UInt64)
    {cell : Nat × Nat} (apart : cell ≠ written)
    : (writeWordLE written.1 written.2 w st).wordAt cell = st.wordAt cell := by
  apply List.map_congr_left
  intro i inWord
  have inWord := List.mem_range.mp inWord
  rw [writeWordLE_eq_writeBytesAt, byteAt_writeBytesAt, if_neg]
  rintro ⟨⟨same, low, high⟩, -⟩
  simp only [wordBytes, List.length_map, List.length_range] at high
  exact apart (Prod.ext same (by omega))

/-- The words of a new object are zero, and the builder stays clean. -/
theorem initObject_clean {st : MessageBuilder} (valid : st.Valid) (clean : st.Clean)
    {p : AnyPointerBuilder} (owned : store.owned st p.cell) (words : Nat) (encode : Int → UInt64)
    : (initObject p words encode st).2.Clean
      ∧ ∀ cell, Behind (initObject p words encode st).1.1 (initObject p words encode st).1.2 cell →
          (initObject p words encode st).2.wordAt cell = wordBytes 0 := by
  have notBehind := (initObject_places valid p words encode).not_behind owned
  have zeros {after : MessageBuilder} {cell : Nat × Nat}
      (zero : ∀ k, cell.2 * 8 ≤ k → after.byteAt cell.1 k = 0)
      : after.wordAt cell = wordBytes 0 := by
    apply List.map_congr_left
    intro i inWord
    rw [zero _ (Nat.le_add_right ..)]
    simp [shr64]
  by_cases direct : p.seg = st.currentSeg ∧ fits st words
  · obtain ⟨cleaned, zero⟩ := allocWords_clean valid clean words
    have places := allocWords_places valid words
    have owned' := places.writes.effect.grows _ owned
    rw [initObject, if_pos direct] at notBehind ⊢
    refine ⟨writeWordLE_clean cleaned owned' _, fun cell behind => ?_⟩
    refine (wordAt_writeWordLE_of_ne p.cell _ ?_).trans (zeros ?_)
    · rintro rfl
      exact notBehind behind
    · have behind : cell.1 = (allocWords words st).1.1 ∧ (allocWords words st).1.2 ≤ cell.2 :=
        behind
      intro k inside
      rw [behind.1]
      exact zero k (by omega)
  · obtain ⟨cleaned, zero⟩ := allocWords_clean valid clean (words + 1)
    have places := allocWords_places valid (words + 1)
    have owned' := places.writes.effect.grows _ owned
    have room := allocWords_owned valid (words + 1)
    have ownedPad : store.owned (allocWords (words + 1) st).2 (allocWords (words + 1) st).1 :=
      Nat.lt_of_lt_of_le (Nat.lt_add_of_pos_right (Nat.succ_pos words)) room
    rw [initObject, if_neg direct] at notBehind ⊢
    have far := writeWordLE_clean cleaned owned'
      (encodeFarPointer false (allocWords (words + 1) st).1.1 (allocWords (words + 1) st).1.2)
    refine ⟨writeWordLE_clean far ownedPad _, fun cell behind => ?_⟩
    have behind : cell.1 = (allocWords (words + 1) st).1.1
        ∧ (allocWords (words + 1) st).1.2 + 1 ≤ cell.2 :=
      behind
    refine (wordAt_writeWordLE_of_ne (allocWords (words + 1) st).1 _ ?_).trans
      ((wordAt_writeWordLE_of_ne p.cell _ ?_).trans (zeros ?_))
    · rintro rfl
      omega
    · rintro rfl
      exact notBehind behind
    · intro k inside
      rw [behind.1]
      exact zero k (by omega)

/-- The bits of a zero word are clear. -/
theorem bitAt_of_zero {st : MessageBuilder} {seg k : Nat}
    (zero : st.wordAt (seg, k / 64) = wordBytes 0) : st.bitAt seg k = false := by
  have inWord : k / 8 % 8 < 8 := Nat.mod_lt _ (by decide)
  have place : k / 64 * 8 + k / 8 % 8 = k / 8 := by omega
  have byte := getD_wordAt st (seg, k / 64) inWord
  have clear : (wordBytes 0).getD (k / 8 % 8) 0 = 0 := by
    have zeros : wordBytes 0 = List.replicate 8 0 := by decide
    rw [zeros, getD_replicate_zero]
  rw [zero, clear, place] at byte
  rw [bitAt, ← byte]
  exact Nat.zero_testBit _

/-- A new list leaves the unused words zero. -/
theorem initListPointer_clean {st : MessageBuilder} {p : AnyPointerBuilder} (valid : st.Valid)
    (clean : st.Clean) (owned : store.owned st p.cell)
    (elemSize elemCount : Nat) : (initListPointer p elemSize elemCount st).2.Clean :=
  (initObject_clean valid clean owned (initListWords elemSize elemCount)
    (fun offset => encodeListPointer offset elemSize elemCount)).1

/-- Steps that leave the free words zero while a region is allocated, one after the other. -/
theorem foldlM_clean {β : Type*} {step : MessageBuilder → β → Option MessageBuilder}
    {items : List β} (region : Nat × Nat → Prop)
    (each
      : ∀ item ∈ items, ∀ {state next}, state.Valid → state.Clean →
          (∀ cell, region cell → store.owned state cell) → step state item = some next →
            Writes (fun _ => True) state next ∧ next.Clean)
    {st after : MessageBuilder} (valid : st.Valid) (clean : st.Clean)
    (owned : ∀ cell, region cell → store.owned st cell) (ran : items.foldlM step st = some after)
    : after.Clean := by
  obtain ⟨⟨-, last, -⟩, -⟩ := Store.Effect.foldlM
    (fun state => state.Valid ∧ state.Clean ∧ ∀ cell, region cell → store.owned state cell)
    (by
      rintro item member state next ⟨valid, clean, owned⟩ ran
      obtain ⟨writes, kept⟩ := each item member valid clean owned ran
      exact ⟨⟨writes.valid, kept, fun cell inside => writes.effect.grows _ (owned cell inside)⟩,
        writes.effect⟩)
    ⟨valid, clean, owned⟩ ran
  exact last

end Capnp
