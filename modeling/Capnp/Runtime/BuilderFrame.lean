import Capnp.Library.Frame
import Capnp.Runtime.Builder
import Mathlib.Data.List.GetD

/-! What each operation of a message builder leaves alone: a valid builder stays valid, and
allocated words change only where the operation says it writes.
-/

namespace Capnp

namespace MessageBuilder

def used (st : MessageBuilder) (seg : Nat) : Nat :=
  st.usedWords.getD seg 0

def byteAt (st : MessageBuilder) (seg byteOff : Nat) : UInt8 :=
  (st.segments.getD seg []).getD byteOff 0

def wordAt (st : MessageBuilder) (cell : Nat × Nat) : List UInt8 :=
  (List.range 8).map (fun i => st.byteAt cell.1 (cell.2 * 8 + i))

/-- The words of the segments, of which a segment owns the used ones. -/
def store : Store MessageBuilder (Nat × Nat) (List UInt8) where
  read := wordAt
  owned := fun st cell => cell.2 < st.used cell.1

/-- A builder whose used words lie inside its segments and whose free words are those from
`nextWord` on.
-/
structure Valid (st : MessageBuilder) : Prop where
  sizes : st.usedWords.length = st.segments.length
  current : st.currentSeg < st.segments.length
  next : st.used st.currentSeg = st.nextWord
  inside : ∀ seg, st.used seg * 8 ≤ (st.segments.getD seg []).length

/-- An operation keeps a valid builder valid and has the footprint `written`. -/
structure Writes (written : Nat × Nat → Prop) (before after : MessageBuilder) : Prop where
  valid : after.Valid
  effect : store.Effect written before after

/-- What it allocates besides is behind every word allocated before. -/
structure Places (written : Nat × Nat → Prop) (before : MessageBuilder)
    (result : (Nat × Nat) × MessageBuilder) : Prop where
  writes : Writes written before result.2
  fresh : before.used result.1.1 ≤ result.1.2

end MessageBuilder

open MessageBuilder

/-- A new builder is valid: one segment, whose first word is taken. -/
theorem initMessageBuilder_valid (segmentWords : Nat) :
    (initMessageBuilder segmentWords).Valid where
  sizes := rfl
  current := by simp [initMessageBuilder]
  next := rfl
  inside := by
    intro seg
    cases seg with
    | zero =>
        show 1 * 8 ≤ (List.replicate (max 1 segmentWords * 8) (0 : UInt8)).length
        rw [List.length_replicate]
        omega
    | succ seg => simp [used, initMessageBuilder]

/-- What is written by one step after another, if the second writes no other old word. -/
theorem MessageBuilder.Writes.trans {written others : Nat × Nat → Prop}
    {before middle after : MessageBuilder}
    (first : Writes written before middle) (second : Writes others middle after)
    (inside : ∀ cell, store.owned before cell → others cell → written cell)
    : Writes written before after :=
  ⟨second.valid, first.effect.trans second.effect inside⟩

/-- More words may be named as written. -/
theorem MessageBuilder.Writes.widen {written others : Nat × Nat → Prop}
    {before after : MessageBuilder}
    (writes : Writes written before after)
    (wider : ∀ cell, store.owned before cell → written cell → others cell)
    : Writes others before after :=
  ⟨writes.valid, writes.effect.widen wider⟩

/-- Any other allocated word is unchanged. -/
theorem MessageBuilder.Writes.wordAt_eq {written : Nat × Nat → Prop} {before after : MessageBuilder}
    (writes : Writes written before after) {cell : Nat × Nat} (owned : store.owned before cell)
    (unwritten : ¬ written cell) : after.wordAt cell = before.wordAt cell :=
  writes.effect.kept cell owned unwritten

/-- A loop writes what its steps write, by induction on its items. -/
theorem MessageBuilder.Writes.foldl {ι : Type*} {written : Nat × Nat → Prop}
    {step : MessageBuilder → ι → MessageBuilder} {items : List ι}
    (each : ∀ item ∈ items, ∀ {st : MessageBuilder}, st.Valid → Writes written st (step st item))
    {before : MessageBuilder} (valid : before.Valid)
    : Writes written before (items.foldl step before) := by
  obtain ⟨valid, effect⟩ := Store.Effect.foldl Valid
    (fun item member _ valid => ⟨(each item member valid).valid, (each item member valid).effect⟩)
    valid
  exact ⟨valid, effect⟩

/-- The same for a loop whose steps may not return. -/
theorem MessageBuilder.Writes.foldlM {ι : Type*} {written : Nat × Nat → Prop}
    {step : MessageBuilder → ι → Option MessageBuilder} {items : List ι}
    (each
      : ∀ item ∈ items, ∀ {st next : MessageBuilder}, st.Valid → step st item = some next →
          Writes written st next)
    {before after : MessageBuilder} (valid : before.Valid)
    (ran : items.foldlM step before = some after) : Writes written before after := by
  obtain ⟨valid, effect⟩ := Store.Effect.foldlM Valid
    (fun item member _ _ valid ran =>
      ⟨(each item member valid ran).valid, (each item member valid ran).effect⟩)
    valid ran
  exact ⟨valid, effect⟩

/-- Setting bytes keeps the size. -/
theorem length_setBytes (ba : List UInt8) (byteOff count : Nat) (byte : Nat → UInt8)
    : (setBytes ba byteOff count byte).length = ba.length := by
  unfold setBytes
  induction count with
  | zero => rfl
  | succ count ih => simpa [List.range_succ, List.foldl_append] using ih

/-- Exactly the bytes in the range are set, as far as there are any. -/
theorem getElem?_setBytes (ba : List UInt8) (byteOff count : Nat) (byte : Nat → UInt8) (k : Nat)
    : (setBytes ba byteOff count byte)[k]?
      = if byteOff ≤ k ∧ k < byteOff + count then ba[k]?.map (fun _ => byte (k - byteOff))
        else ba[k]? := by
  induction count with
  | zero =>
      rw [if_neg (by omega)]
      rfl
  | succ count ih =>
      have last
          : setBytes ba byteOff (count + 1) byte
            = (setBytes ba byteOff count byte).set (byteOff + count) (byte count) := by
        simp [setBytes, List.range_succ, List.foldl_append]
      rw [last, List.getElem?_set, length_setBytes, ih]
      rcases eq_or_ne (byteOff + count) k with rfl | same
      · have inside : byteOff ≤ byteOff + count ∧ byteOff + count < byteOff + (count + 1) := by
          omega
        rw [if_pos rfl, if_pos inside, Nat.add_sub_cancel_left]
        split_ifs with bound
        · rw [List.getElem?_eq_getElem bound, Option.map_some]
        · rw [List.getElem?_eq_none (by omega), Option.map_none]
      · rw [if_neg same]
        exact if_congr (by omega) rfl rfl

/-- One element of a list is replaced, if it is there. -/
theorem getD_set {α : Type*} (items : List α) (i : Nat) (item default : α) (j : Nat)
    : (items.set i item).getD j default
      = if j = i ∧ i < items.length then item else items.getD j default := by
  rw [List.getD_eq_getElem?_getD, List.getD_eq_getElem?_getD, List.getElem?_set]
  rcases eq_or_ne j i with rfl | same
  · by_cases bound : j < items.length
    · simp [bound]
    · simp [bound]
  · rw [if_neg (Ne.symm same), if_neg (fun facts => same facts.1)]

/-- Only the named segment is changed; a missing one stays missing. -/
theorem getD_modifySegment (seg : Nat) (f : List UInt8 → List UInt8) (st : MessageBuilder)
    (empty : f [] = []) (seg' : Nat)
    : (modifySegment seg f st).segments.getD seg' []
      = if seg' = seg then f (st.segments.getD seg []) else st.segments.getD seg' [] := by
  rw [modifySegment, getD_set]
  rcases eq_or_ne seg' seg with rfl | same
  · by_cases bound : seg' < st.segments.length
    · rw [if_pos ⟨rfl, bound⟩, if_pos rfl]
    · rw [if_neg (fun facts => bound facts.2), if_pos rfl,
        List.getD_eq_default _ _ (by omega), empty]
  · rw [if_neg (fun facts => same facts.1), if_neg same]

/-- A missing segment has no bytes to set. -/
theorem setBytes_nil (byteOff count : Nat) (byte : Nat → UInt8)
    : setBytes [] byteOff count byte = [] :=
  List.eq_nil_of_length_eq_zero (length_setBytes ..)

/-- A write changes the bytes that it names and its segment has. -/
theorem byteAt_modifySegment (seg byteOff count : Nat) (byte : Nat → UInt8) (st : MessageBuilder)
    (seg' k : Nat)
    : (modifySegment seg (fun ba => setBytes ba byteOff count byte) st).byteAt seg' k
      = if (seg' = seg ∧ byteOff ≤ k ∧ k < byteOff + count)
            ∧ k < (st.segments.getD seg []).length then
          byte (k - byteOff)
        else st.byteAt seg' k := by
  rw [byteAt, getD_modifySegment _ _ _ (setBytes_nil ..)]
  rcases eq_or_ne seg' seg with rfl | same
  · rw [if_pos rfl, byteAt]
    generalize st.segments.getD seg' [] = ba
    rw [List.getD_eq_getElem?_getD, List.getD_eq_getElem?_getD, getElem?_setBytes]
    by_cases bound : k < ba.length
    · rw [List.getElem?_eq_getElem bound]
      split_ifs <;> simp_all
    · rw [List.getElem?_eq_none (by omega)]
      simp [bound]
  · rw [if_neg same, if_neg (fun facts => same facts.1.1), byteAt]

/-- Setting bytes of a segment keeps a builder valid. -/
theorem modifySegment_valid {st : MessageBuilder} (valid : st.Valid) (seg byteOff count : Nat)
    (byte : Nat → UInt8)
    : (modifySegment seg (fun ba => setBytes ba byteOff count byte) st).Valid where
  sizes := by simpa [modifySegment] using valid.sizes
  current := by simpa [modifySegment] using valid.current
  next := valid.next
  inside := by
    intro seg'
    rw [getD_modifySegment _ _ _ (setBytes_nil ..)]
    rcases eq_or_ne seg' seg with rfl | same
    · rw [if_pos rfl, length_setBytes]
      exact valid.inside seg'
    · rw [if_neg same]
      exact valid.inside seg'

/-- The words that the bytes of a write fall in. -/
theorem modifySegment_writes {st : MessageBuilder} (valid : st.Valid) (seg byteOff count : Nat)
    (byte : Nat → UInt8)
    : Writes (fun cell => cell.1 = seg ∧ byteOff < cell.2 * 8 + 8 ∧ cell.2 * 8 < byteOff + count) st
        (modifySegment seg (fun ba => setBytes ba byteOff count byte) st) := by
  refine ⟨modifySegment_valid valid seg byteOff count byte, fun _ => id, ?_⟩
  intro cell _ unwritten
  show List.map _ _ = List.map _ _
  apply List.map_congr_left
  intro i inWord
  rw [List.mem_range] at inWord
  rw [byteAt_modifySegment, if_neg]
  intro inside
  apply unwritten
  exact ⟨inside.1.1, by omega, by omega⟩

/-- A word is written in its own cell. -/
theorem writeWordLE_writes {st : MessageBuilder} (valid : st.Valid) (seg wordOff : Nat)
    (w : UInt64)
    : Writes (fun cell => cell = (seg, wordOff)) st (writeWordLE seg wordOff w st) := by
  obtain ⟨kept, effect⟩ := modifySegment_writes valid seg (wordOff * 8) 8
    (fun i => (shr64 w (8 * i)).toUInt8)
  refine ⟨kept, effect.widen ?_⟩
  intro cell _ written
  exact Prod.ext written.1 (by omega)

/-- Bytes are written in the words that they reach. -/
theorem writeBytesAt_writes {st : MessageBuilder} (valid : st.Valid) (seg wordOff : Nat)
    (src : List UInt8)
    : Writes (fun cell => cell.1 = seg ∧ wordOff ≤ cell.2 ∧ cell.2 * 8 < wordOff * 8 + src.length)
        st (writeBytesAt seg (wordOff * 8) src st) := by
  obtain ⟨kept, effect⟩ := modifySegment_writes valid seg (wordOff * 8) src.length
    (fun i => src.getD i 0)
  refine ⟨kept, effect.widen ?_⟩
  intro cell _ written
  exact ⟨written.1, by omega, by omega⟩

/-- The bytes of a word, the lowest first. -/
def wordBytes (w : UInt64) : List UInt8 :=
  (List.range 8).map (fun i => (shr64 w (8 * i)).toUInt8)

/-- A word that is allocated reads back as written. -/
theorem wordAt_writeWordLE {st : MessageBuilder} (valid : st.Valid) {cell : Nat × Nat}
    (owned : store.owned st cell) (w : UInt64)
    : (writeWordLE cell.1 cell.2 w st).wordAt cell = wordBytes w := by
  have room := valid.inside cell.1
  have used : cell.2 < st.used cell.1 := owned
  apply List.map_congr_left
  intro i inWord
  rw [List.mem_range] at inWord
  rw [writeWordLE, byteAt_modifySegment, if_pos ⟨⟨rfl, by omega, by omega⟩, by omega⟩,
    Nat.add_sub_cancel_left]

/-- Words that differ in their lowest byte have other bytes. -/
theorem wordBytes_ne {w w' : UInt64} (low : w.toUInt8 ≠ w'.toUInt8)
    : wordBytes w ≠ wordBytes w' := by
  intro same
  have first := List.map_inj_left.mp same 0 (List.mem_range.mpr (by omega))
  exact low (by simpa [shr64] using first)

/-- Writing allocates nothing. -/
@[simp] theorem used_modifySegment (seg : Nat) (f : List UInt8 → List UInt8) (st : MessageBuilder)
    : (modifySegment seg f st).used = st.used :=
  rfl

/-- The test is made against the size of the current segment. -/
theorem fits_iff (st : MessageBuilder) (n : Nat)
    : fits st n = true ↔ (st.nextWord + n) * 8 ≤ (st.segments.getD st.currentSeg []).length := by
  rw [fits, decide_eq_true_iff, segmentWordCapacity, Nat.le_div_iff_mul_le (by omega)]

/-- A segment more, all of whose words are free. -/
theorem getD_concat {α : Type*} (items : List α) (last default : α) (i : Nat)
    : (items ++ [last]).getD i default
      = if i = items.length then last else items.getD i default := by
  rcases Nat.lt_trichotomy i items.length with before | here | beyond
  · rw [List.getD_append _ _ _ _ before, if_neg (by omega)]
  · rw [List.getD_append_right _ _ _ _ (by omega), here, if_pos rfl, Nat.sub_self]
    rfl
  · rw [List.getD_eq_default _ _ (by simp; omega), if_neg (by omega),
      List.getD_eq_default _ _ (by omega)]

/-- With room in the current segment, only that one grows. -/
theorem used_allocWords_of_fits {st : MessageBuilder} (valid : st.Valid) {n : Nat}
    (room : fits st n = true) (seg : Nat)
    : (allocWords n st).2.used seg
      = if seg = st.currentSeg then st.nextWord + n else st.used seg := by
  have sizes := valid.sizes
  have current := valid.current
  have next := valid.next
  simp only [allocWords, if_pos room, used, getD_set] at next ⊢
  split_ifs <;> omega

/-- Without room, a new segment is made that has just these words in use. -/
theorem used_allocWords_of_not_fits {st : MessageBuilder} (valid : st.Valid) {n : Nat}
    (room : ¬ fits st n = true) (seg : Nat)
    : (allocWords n st).2.used seg = if seg = st.segments.length then n else st.used seg := by
  simp only [allocWords, if_neg room, used, getD_concat, valid.sizes]

/-- A segment that is missing has no words in use. -/
theorem used_of_length_le {st : MessageBuilder} (valid : st.Valid) {seg : Nat}
    (beyond : st.segments.length ≤ seg) : st.used seg = 0 :=
  List.getD_eq_default _ _ (Nat.le_trans (Nat.le_of_eq valid.sizes) beyond)

/-- Allocation takes no word back. -/
theorem allocWords_grows {st : MessageBuilder} (valid : st.Valid) (n seg : Nat)
    : st.used seg ≤ (allocWords n st).2.used seg := by
  by_cases room : fits st n = true
  · rw [used_allocWords_of_fits valid room]
    split_ifs with same
    · rw [same, valid.next]
      omega
    · omega
  · rw [used_allocWords_of_not_fits valid room]
    split_ifs with same
    · rw [used_of_length_le valid (Nat.le_of_eq same.symm)]
      omega
    · omega

/-- Allocation keeps a builder valid. -/
theorem allocWords_valid {st : MessageBuilder} (valid : st.Valid) (n : Nat)
    : (allocWords n st).2.Valid := by
  by_cases room : fits st n = true
  · have used := used_allocWords_of_fits valid room
    rw [allocWords, if_pos room] at used ⊢
    refine
      { sizes := by simpa using valid.sizes
        current := valid.current
        next := ?_
        inside := ?_ }
    · simpa using used st.currentSeg
    · intro seg
      rw [used]
      split_ifs with same
      · rw [same]
        exact (fits_iff st n).mp room
      · exact valid.inside seg
  · have used := used_allocWords_of_not_fits valid room
    rw [allocWords, if_neg room] at used ⊢
    refine { sizes := by simpa using valid.sizes, current := by simp, next := ?_, inside := ?_ }
    · simpa using used st.segments.length
    · intro seg
      rw [used, getD_concat]
      split_ifs with same
      · rw [List.length_replicate]
        exact Nat.mul_le_mul_right 8 (Nat.le_max_right ..)
      · exact valid.inside seg

/-- Allocation changes no allocated word. -/
theorem allocWords_keeps {st : MessageBuilder} (valid : st.Valid) (n : Nat) {cell : Nat × Nat}
    (owned : store.owned st cell) : (allocWords n st).2.wordAt cell = st.wordAt cell := by
  by_cases room : fits st n = true
  · rw [allocWords, if_pos room]
    rfl
  · have other : cell.1 ≠ st.segments.length := by
      intro same
      have before : cell.2 < st.used cell.1 := owned
      rw [used_of_length_le valid (Nat.le_of_eq same.symm)] at before
      omega
    simp only [allocWords, if_neg room, wordAt, byteAt, getD_concat, if_neg other]

/-- What is allocated lies behind everything that was in use. -/
theorem allocWords_places {st : MessageBuilder} (valid : st.Valid) (n : Nat)
    : Places (fun _ => False) st (allocWords n st) where
  writes := by
    refine ⟨allocWords_valid valid n, ?_, fun _ owned _ => allocWords_keeps valid n owned⟩
    intro cell owned
    exact Nat.lt_of_lt_of_le owned (allocWords_grows valid n cell.1)
  fresh := by
    by_cases room : fits st n = true
    · rw [allocWords, if_pos room]
      exact Nat.le_of_eq valid.next
    · rw [allocWords, if_neg room]
      exact Nat.le_of_eq (used_of_length_le valid (Nat.le_refl _))

/-- A word behind the used ones is not allocated. -/
theorem not_owned_of_used_le {st : MessageBuilder} {seg word : Nat} (beyond : st.used seg ≤ word)
    : ¬ store.owned st (seg, word) :=
  Nat.not_lt.mpr beyond

/-- No allocated word is behind the place. -/
theorem MessageBuilder.Places.not_behind {written : Nat × Nat → Prop} {before : MessageBuilder}
    {result : (Nat × Nat) × MessageBuilder} (places : Places written before result)
    {cell : Nat × Nat} (owned : store.owned before cell)
    : ¬ (cell.1 = result.1.1 ∧ result.1.2 ≤ cell.2) := by
  intro inside
  have allocated : cell.2 < before.used cell.1 := owned
  have fresh := places.fresh
  rw [inside.1] at allocated
  omega

/-- An object may be filled in without touching older words. -/
theorem MessageBuilder.Places.trans {written : Nat × Nat → Prop} {before after : MessageBuilder}
    {result : (Nat × Nat) × MessageBuilder} (places : Places written before result)
    (object : Writes (fun cell => cell.1 = result.1.1 ∧ result.1.2 ≤ cell.2) result.2 after)
    : Writes written before after :=
  places.writes.trans object (fun _ owned inside => absurd inside (places.not_behind owned))

/-- The first word of the place is behind it. -/
theorem MessageBuilder.Places.writeWordLE {written : Nat × Nat → Prop} {before : MessageBuilder}
    {result : (Nat × Nat) × MessageBuilder} (places : Places written before result) (w : UInt64)
    : Writes (fun cell => cell.1 = result.1.1 ∧ result.1.2 ≤ cell.2) result.2
        (writeWordLE result.1.1 result.1.2 w result.2) := by
  apply (writeWordLE_writes places.writes.valid ..).widen
  intro cell _ first
  rw [first]
  exact ⟨rfl, Nat.le_refl _⟩

/-- A new object changes one old word, its pointer's. -/
theorem initObject_places {st : MessageBuilder} (valid : st.Valid) (p : AnyPointerBuilder)
    (words : Nat) (encode : Int → UInt64)
    : Places (fun cell => cell = (p.seg, p.word)) st (initObject p words encode st) := by
  by_cases direct : p.seg = st.currentSeg ∧ fits st words
  · have places := allocWords_places valid words
    rw [initObject, if_pos direct]
    refine ⟨?_, places.fresh⟩
    apply (places.writes.widen (fun _ _ => False.elim)).trans
      (writeWordLE_writes places.writes.valid ..)
    exact fun _ _ => id
  · have places := allocWords_places valid (words + 1)
    have far := writeWordLE_writes places.writes.valid p.seg p.word
      (encodeFarPointer false (allocWords (words + 1) st).1.1 (allocWords (words + 1) st).1.2)
    rw [initObject, if_neg direct]
    refine ⟨?_, Nat.le_succ_of_le places.fresh⟩
    have pointer := (places.writes.widen (fun _ _ => False.elim)).trans far (fun _ _ => id)
    apply pointer.trans (writeWordLE_writes far.valid ..)
    intro cell owned pad
    rw [pad] at owned
    exact absurd owned (not_owned_of_used_le places.fresh)

-----------------------------------------------------------------------------------------
-- Pointer words
-----------------------------------------------------------------------------------------

/-- A byte with a clear bit among the lowest three is not 7. -/
theorem toUInt8_ne_of_testBit {w : UInt64} {i : Nat} (low : i < 3)
    (clear : w.toNat.testBit i = false) : w.toUInt8 ≠ 7 := by
  intro same
  have byte : w.toNat % 2 ^ 8 = 7 := by
    rw [← UInt64.toNat_toUInt8, same]
    rfl
  have set : ∀ i < 3, Nat.testBit 7 i = true := by decide
  have bit : (w.toNat % 2 ^ 8).testBit i = true := by
    rw [byte]
    exact set i low
  rw [Nat.testBit_mod_two_pow, clear] at bit
  simp at bit

/-- A shift to the left clears the bits below. -/
theorem testBit_shiftLeft_low (w : UInt64) (amount i : Nat) (low : i < amount)
    (small : amount < 64) : (w <<< UInt64.ofNat amount).toNat.testBit i = false := by
  rw [UInt64.toNat_shiftLeft, UInt64.toNat_ofNat_of_lt' (by omega : amount < 2 ^ 64),
    Nat.testBit_mod_two_pow, Nat.mod_eq_of_lt small, Nat.testBit_shiftLeft]
  simp
  omega

/-- No struct pointer starts with the byte 7. -/
theorem encodeStructPointer_tag (offset : Int) (dataWords ptrCount : Nat)
    : (encodeStructPointer offset dataWords ptrCount).toUInt8 ≠ 7 := by
  apply toUInt8_ne_of_testBit (by omega : 0 < 3)
  have offset := testBit_shiftLeft_low (intToUInt 30 offset) 2 0 (by omega) (by omega)
  have size := testBit_shiftLeft_low (UInt64.ofNat dataWords) 32 0 (by omega) (by omega)
  have count := testBit_shiftLeft_low (UInt64.ofNat ptrCount) 48 0 (by omega) (by omega)
  simp only [encodeStructPointer, UInt64.toNat_or, Nat.testBit_or, Bool.or_eq_false_iff]
  exact ⟨⟨offset, size⟩, count⟩

/-- No list pointer starts with the byte 7. -/
theorem encodeListPointer_tag (offset : Int) (elemSize elemCount : Nat)
    : (encodeListPointer offset elemSize elemCount).toUInt8 ≠ 7 := by
  apply toUInt8_ne_of_testBit (by omega : 1 < 3)
  have offset := testBit_shiftLeft_low (intToUInt 30 offset) 2 1 (by omega) (by omega)
  have size := testBit_shiftLeft_low (UInt64.ofNat elemSize) 32 1 (by omega) (by omega)
  have count := testBit_shiftLeft_low (UInt64.ofNat elemCount) 35 1 (by omega) (by omega)
  simp only [encodeListPointer, UInt64.toNat_or, Nat.testBit_or, Bool.or_eq_false_iff]
  exact ⟨⟨⟨rfl, offset⟩, size⟩, count⟩

/-- No far pointer starts with the byte 7. -/
theorem encodeFarPointer_tag (isDouble : Bool) (segId offset : Nat)
    : (encodeFarPointer isDouble segId offset).toUInt8 ≠ 7 := by
  apply toUInt8_ne_of_testBit (by omega : 0 < 3)
  have double := testBit_shiftLeft_low (UInt64.ofNat (if isDouble then 1 else 0)) 2 0 (by omega)
    (by omega)
  have offset := testBit_shiftLeft_low (UInt64.ofNat offset) 3 0 (by omega) (by omega)
  have segment := testBit_shiftLeft_low (UInt64.ofNat segId) 32 0 (by omega) (by omega)
  simp only [encodeFarPointer, UInt64.toNat_or, Nat.testBit_or, Bool.or_eq_false_iff]
  exact ⟨⟨⟨rfl, double⟩, offset⟩, segment⟩

/-- No capability pointer starts with the byte 7. -/
theorem encodeCapabilityPointer_tag (index : UInt32)
    : (encodeCapabilityPointer index).toUInt8 ≠ 7 := by
  apply toUInt8_ne_of_testBit (by omega : 2 < 3)
  have index := testBit_shiftLeft_low index.toUInt64 32 2 (by omega) (by omega)
  simp only [encodeCapabilityPointer, UInt64.toNat_or, Nat.testBit_or, Bool.or_eq_false_iff]
  exact ⟨rfl, index⟩

/-- How a pointer is written: as a word of its own, or as the pointer to an object whose words
are all behind the allocated ones.
-/
inductive PointerWritten (p : AnyPointerBuilder) (before after : MessageBuilder) : Prop where
  | word (w : UInt64) (tag : w.toUInt8 ≠ 7) (wrote : after = writeWordLE p.seg p.word w before)
  | object (words : Nat) (encode : Int → UInt64) (tag : ∀ offset, (encode offset).toUInt8 ≠ 7)
      (behind
        : Writes (fun cell => cell.1 = (initObject p words encode before).1.1
            ∧ (initObject p words encode before).1.2 ≤ cell.2)
            (initObject p words encode before).2 after)

/-- Writing a pointer changes one old word, its own. -/
theorem PointerWritten.writes {p : AnyPointerBuilder} {before after : MessageBuilder}
    (valid : before.Valid) (written : PointerWritten p before after)
    : Writes (fun cell => cell = (p.seg, p.word)) before after := by
  cases written with
  | word w tag wrote =>
      rw [wrote]
      exact writeWordLE_writes valid ..
  | object words encode tag behind => exact (initObject_places valid p words encode).trans behind

/-- The pointer to a new object does not start with the byte 7. -/
theorem initObject_tag {st : MessageBuilder} (valid : st.Valid) {p : AnyPointerBuilder}
    (owned : store.owned st (p.seg, p.word)) (words : Nat) {encode : Int → UInt64}
    (tag : ∀ offset, (encode offset).toUInt8 ≠ 7)
    : (initObject p words encode st).2.wordAt (p.seg, p.word) ≠ wordBytes 7 := by
  by_cases direct : p.seg = st.currentSeg ∧ fits st words
  · have places := allocWords_places valid words
    rw [initObject, if_pos direct]
    show (writeWordLE ..).wordAt _ ≠ _
    rw [wordAt_writeWordLE places.writes.valid (places.writes.effect.grows _ owned)]
    exact wordBytes_ne (tag _)
  · have places := allocWords_places valid (words + 1)
    have owned' := places.writes.effect.grows _ owned
    have far := writeWordLE_writes places.writes.valid p.seg p.word
      (encodeFarPointer false (allocWords (words + 1) st).1.1 (allocWords (words + 1) st).1.2)
    have pad := writeWordLE_writes far.valid (allocWords (words + 1) st).1.1
      (allocWords (words + 1) st).1.2 (encode 0)
    have other : (p.seg, p.word) ≠ (allocWords (words + 1) st).1 := by
      intro same
      rw [same] at owned
      exact not_owned_of_used_le places.fresh owned
    have kept := pad.wordAt_eq (far.effect.grows _ owned') other
    have tagged
        : wordBytes (encodeFarPointer false (allocWords (words + 1) st).1.1
            (allocWords (words + 1) st).1.2) ≠ wordBytes 7 :=
      wordBytes_ne (encodeFarPointer_tag _ _ _)
    rw [initObject, if_neg direct]
    rw [← wordAt_writeWordLE places.writes.valid owned'] at tagged
    exact fun same => tagged (kept.symm.trans same)

/-- A written pointer does not start with the byte 7. -/
theorem PointerWritten.tag {p : AnyPointerBuilder} {before after : MessageBuilder}
    (valid : before.Valid) (written : PointerWritten p before after)
    (owned : store.owned before (p.seg, p.word)) : after.wordAt (p.seg, p.word) ≠ wordBytes 7 := by
  cases written with
  | word w tag wrote =>
      rw [wrote, wordAt_writeWordLE valid owned]
      exact wordBytes_ne tag
  | object words encode tag behind =>
      have places := initObject_places valid p words encode
      have kept := behind.wordAt_eq (places.writes.effect.grows _ owned) (places.not_behind owned)
      rw [kept]
      exact initObject_tag valid owned words tag

end Capnp
