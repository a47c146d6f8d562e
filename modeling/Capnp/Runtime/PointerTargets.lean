import Capnp.Runtime.ListWriters
import Capnp.Runtime.PointerWords

/-! Pointers of a message that is built: a reader finds the object that a pointer was
initialised with, whether the pointer leads there itself or over a landing pad.
-/

namespace Capnp

open MessageBuilder

/-- Every place of the message has a number that fits the fields of pointers. -/
structure MessageBuilder.Addressable (st : MessageBuilder) : Prop where
  segments : st.segments.length ≤ 2 ^ 32
  words : ∀ seg, st.used seg ≤ 2 ^ 29

/-- The used words of the segments that there are decide it. -/
theorem addressable_of_usedWords {st : MessageBuilder} (segments : st.segments.length ≤ 2 ^ 32)
    (words : ∀ words ∈ st.usedWords, words ≤ 2 ^ 29) : st.Addressable where
  segments := segments
  words := by
    intro seg
    rw [used, List.getD_eq_getElem?_getD]
    cases present : st.usedWords[seg]? with
    | none => exact Nat.zero_le _
    | some used => exact words used (List.mem_of_getElem? present)

/-- A pointer of a builder as a reader of the message has it. -/
def AnyPointerBuilder.reader (p : AnyPointerBuilder) (st : MessageBuilder) : AnyPointer where
  msg := buildMessage st
  seg := p.seg
  word := p.word

def AnyPointerBuilder.cell (p : AnyPointerBuilder) : Nat × Nat :=
  (p.seg, p.word)

-----------------------------------------------------------------------------------------
-- Words that are read
-----------------------------------------------------------------------------------------

/-- A finished message has all segments. -/
theorem length_segments_buildMessage (st : MessageBuilder)
    : (buildMessage st).segments.length = st.segments.length := by
  simp [buildMessage]

/-- An allocated word is in a segment that exists. -/
theorem segment_lt_of_owned {st : MessageBuilder} (valid : st.Valid) {cell : Nat × Nat}
    (owned : store.owned st cell)
    : cell.1 < st.segments.length := by
  by_contra outside
  have none := used_of_length_le valid (Nat.le_of_not_lt outside)
  have inside : cell.2 < st.used cell.1 := owned
  omega

/-- What is allocated up to some word stays so. -/
theorem used_le_of_effect {written : Nat × Nat → Prop} {before after : MessageBuilder}
    (effect : store.Effect written before after) {seg words : Nat}
    (inside : words ≤ before.used seg)
    : words ≤ after.used seg := by
  cases words with
  | zero => exact Nat.zero_le _
  | succ words => exact effect.grows (seg, words) inside

/-- The bytes of a word. -/
theorem getD_wordAt (st : MessageBuilder) (cell : Nat × Nat) {i : Nat} (inWord : i < 8)
    : (st.wordAt cell).getD i 0 = st.byteAt cell.1 (cell.2 * 8 + i) := by
  rw [List.getD_eq_getElem _ _ (by simpa [wordAt] using inWord)]
  simp [wordAt]

/-- A finished message has the words that are in use. -/
theorem readWord_buildMessage {st : MessageBuilder} (valid : st.Valid) {seg word : Nat}
    (owned : store.owned st (seg, word))
    : readWord (buildMessage st) seg word
      = wordOfBytes (fun i => (st.wordAt (seg, word)).getD i 0) := by
  have inside : word < st.used seg := owned
  refine wordOfBytes_congr (fun i inWord => ?_)
  rw [getD_wordAt st (seg, word) inWord, readByte_buildMessage valid (by omega)]

/-- The segments of the message are the used words. -/
theorem length_getSegment_buildMessage {st : MessageBuilder} (valid : st.Valid) (seg : Nat)
    : (getSegment (buildMessage st) seg).length = st.used seg * 8 := by
  have sizes := valid.sizes
  have inside := valid.inside seg
  by_cases present : seg < st.segments.length
  · have segment : st.segments[seg] = st.segments.getD seg [] :=
      (List.getD_eq_getElem _ _ present).symm
    have words : st.usedWords.getD seg (st.segments[seg].length / 8) = st.used seg := by
      rw [used, List.getD_eq_getElem _ _ (by omega), List.getD_eq_getElem _ _ (by omega)]
    rw [getSegment, buildMessage, List.getD_eq_getElem _ _ (by simpa using present),
      List.getElem_mapIdx, words, List.length_take, segment]
    omega
  · have absent : getSegment (buildMessage st) seg = [] :=
      List.getD_eq_default _ _ (by simpa [buildMessage] using present)
    rw [absent, used_of_length_le valid (Nat.le_of_not_lt present)]
    rfl

/-- A finished segment has as many words as are in use. -/
theorem segmentWordCount_buildMessage {st : MessageBuilder} (valid : st.Valid) (seg : Nat)
    : segmentWordCount (buildMessage st) seg = st.used seg := by
  rw [segmentWordCount, length_getSegment_buildMessage valid, Nat.mul_div_cancel _ (by decide)]

/-- An allocated word passes the check of words. -/
theorem readWordChecked_buildMessage {st : MessageBuilder} (valid : st.Valid) {seg word : Nat}
    (owned : store.owned st (seg, word))
    : readWordChecked (buildMessage st) seg word = .ok (readWord (buildMessage st) seg word) := by
  have words := segmentWordCount_buildMessage valid seg
  have inside : word < st.used seg := owned
  have present := segment_lt_of_owned valid owned
  unfold segmentWordCount at words
  rw [readWordChecked, if_neg, if_pos (by omega)]
  rw [length_segments_buildMessage]
  exact Nat.not_le.mpr present

/-- The bytes of a word are those that it was put together from, by induction on how many. -/
theorem wordBytes_wordOfBytes (byte : Nat → UInt8)
    : wordBytes (wordOfBytes byte) = (List.range 8).map byte := by
  let low (n : Nat) : UInt64 :=
    (List.range n).foldl (fun acc i => acc ||| shl64 (byte i).toUInt64 (8 * i)) 0
  have digits (n : Nat) (inWord : n ≤ 8)
      : (low n).toNat < 2 ^ (8 * n)
        ∧ ∀ i < n, (low n).toNat / 2 ^ (8 * i) % 2 ^ 8 = (byte i).toNat := by
    induction n with
    | zero => exact ⟨by simp [low], fun i absent => absurd absent (Nat.not_lt_zero i)⟩
    | succ n ih =>
        obtain ⟨small, below⟩ := ih (by omega)
        have last : (byte n).toNat < 2 ^ 8 := (byte n).toNat_lt
        have power : 2 ^ (8 * (n + 1)) = 2 ^ 8 * 2 ^ (8 * n) := by
          rw [← Nat.pow_add, Nat.mul_succ, Nat.add_comm]
        have value : (low (n + 1)).toNat = (low n).toNat + (byte n).toNat * 2 ^ (8 * n) := by
          have step : low (n + 1) = low n ||| shl64 (byte n).toUInt64 (8 * n) := by
            simp only [low, List.range_succ, List.foldl_append, List.foldl_cons, List.foldl_nil]
          rw [step, UInt64.toNat_or, toNat_shl64_byte _ (by omega), Nat.or_comm,
            ← Nat.shiftLeft_eq, ← Nat.shiftLeft_add_eq_or_of_lt small, Nat.add_comm]
        refine ⟨?_, fun i inside => ?_⟩
        · calc
            (low (n + 1)).toNat < (1 + (byte n).toNat) * 2 ^ (8 * n) := by
              rw [value, Nat.add_mul, Nat.one_mul]
              omega
            _ ≤ 2 ^ 8 * 2 ^ (8 * n) := Nat.mul_le_mul_right _ (by omega)
            _ = 2 ^ (8 * (n + 1)) := power.symm
        · rcases Nat.lt_succ_iff_lt_or_eq.mp inside with inside | rfl
          · have higher
                : (byte n).toNat * 2 ^ (8 * n)
                  = 2 ^ (8 * i) * (2 ^ 8 * ((byte n).toNat * 2 ^ (8 * (n - i - 1)))) := by
              have split : 8 * n = 8 * i + 8 + 8 * (n - i - 1) := by omega
              rw [split, Nat.pow_add, Nat.pow_add]
              ac_rfl
            rw [value, higher, Nat.add_mul_div_left _ _ (Nat.two_pow_pos _),
              Nat.add_mul_mod_self_left, below i inside]
          · rw [value, Nat.add_mul_div_right _ _ (Nat.two_pow_pos _),
              Nat.div_eq_of_lt small, Nat.zero_add, Nat.mod_eq_of_lt last]
  apply List.map_congr_left
  intro i inWord
  rw [List.mem_range] at inWord
  have shifted : (shr64 (wordOfBytes byte) (8 * i)).toNat = (low 8).toNat / 2 ^ (8 * i) :=
    WordFields.toNat_shiftRight (8 * i) _ _ (UInt64.toNat_ofNat_of_lt' (show _ < 2 ^ 64 by omega))
      (by omega)
  rw [← UInt8.toNat_inj, UInt64.toNat_toUInt8, shifted]
  exact (digits 8 (Nat.le_refl 8)).2 i inWord

/-- An allocated word is read as the number that was written to it. -/
theorem readWord_of_wordAt {st : MessageBuilder} (valid : st.Valid) {seg word : Nat}
    (owned : store.owned st (seg, word)) {w : UInt64}
    (written : st.wordAt (seg, word) = wordBytes w)
    : readWord (buildMessage st) seg word = w := by
  rw [readWord_buildMessage valid owned, written, wordOfBytes_wordBytes]

-----------------------------------------------------------------------------------------
-- Where pointers lead
-----------------------------------------------------------------------------------------

/-- How a pointer leads to a place. -/
inductive PointsTo (st : MessageBuilder) (p : AnyPointerBuilder) (place : Nat × Nat)
    (encode : Int → UInt64) : Prop
  | direct (same : place.1 = p.seg) (owned : store.owned st p.cell)
      (word
        : st.wordAt p.cell
          = wordBytes (encode (Int.ofNat place.2 - Int.ofNat (p.word + 1))))
  | far (pad : Nat) (behind : place.2 = pad + 1) (owned : store.owned st p.cell)
      (ownedPad : store.owned st (place.1, pad))
      (word : st.wordAt p.cell = wordBytes (encodeFarPointer false place.1 pad))
      (padWord : st.wordAt (place.1, pad) = wordBytes (encode 0))

/-- A new object is where its pointer leads, whatever its words are filled with and whatever else
is written to words that were allocated before it.
-/
theorem initObject_pointsTo {st later : MessageBuilder} (valid : st.Valid) {p : AnyPointerBuilder}
    (owned : store.owned st p.cell) (words : Nat) (encode : Int → UInt64)
    (effect
      : store.Effect
          (fun cell =>
            (store.owned st cell ∧ cell ≠ p.cell)
            ∨ Behind (initObject p words encode st).1.1 (initObject p words encode st).1.2 cell)
          (initObject p words encode st).2 later)
    : PointsTo later p (initObject p words encode st).1 encode := by
  have notBehind := (initObject_places valid p words encode).not_behind owned
  by_cases direct : p.seg = st.currentSeg ∧ fits st words
  · have places := allocWords_places valid words
    have owned' := places.writes.effect.grows _ owned
    have place : (allocWords words st).1 = (st.currentSeg, st.nextWord) := by
      rw [allocWords, if_pos direct.2]
    rw [initObject, if_pos direct] at effect notBehind ⊢
    have written := wordAt_writeWordLE places.writes.valid owned'
      (encode (Int.ofNat (allocWords words st).1.2 - Int.ofNat (p.word + 1)))
    have now := (writeWordLE_writes places.writes.valid p.seg p.word
      (encode (Int.ofNat (allocWords words st).1.2 - Int.ofNat (p.word + 1)))).effect.grows _ owned'
    refine .direct ?_ (effect.grows _ now) ((effect.kept _ now ?_).trans ?_)
    · show (allocWords words st).1.1 = p.seg
      rw [place, direct.1]
    · exact fun written => written.elim (fun both => both.2 rfl) notBehind
    · exact written
  · have places := allocWords_places valid (words + 1)
    have owned' := places.writes.effect.grows _ owned
    have room := allocWords_owned valid (words + 1)
    rw [initObject, if_neg direct] at effect notBehind ⊢
    let pad := (allocWords (words + 1) st).1
    let farWord := encodeFarPointer false pad.1 pad.2
    have pointer := writeWordLE_writes places.writes.valid p.seg p.word farWord
    have landing := writeWordLE_writes pointer.valid pad.1 pad.2 (encode 0)
    have ownedPad : store.owned (allocWords (words + 1) st).2 pad :=
      Nat.lt_of_lt_of_le (Nat.lt_add_of_pos_right (Nat.succ_pos words)) room
    have fresh : ¬ store.owned st pad := not_owned_of_used_le places.fresh
    have other : p.cell ≠ pad := fun same => fresh (same ▸ owned)
    have wrote : _ = wordBytes farWord := wordAt_writeWordLE places.writes.valid owned' farWord
    have wrotePad := wordAt_writeWordLE pointer.valid (pointer.effect.grows _ ownedPad) (encode 0)
    have now := landing.effect.grows _ (pointer.effect.grows _ owned')
    have nowPad := landing.effect.grows _ (pointer.effect.grows _ ownedPad)
    refine .far pad.2 rfl (effect.grows _ now) (effect.grows _ nowPad) ?_ ?_
    · refine (effect.kept _ now ?_).trans ?_
      · exact fun written => written.elim (fun both => both.2 rfl) notBehind
      · exact (landing.wordAt_eq (pointer.effect.grows _ owned') other).trans wrote
    · refine (effect.kept _ nowPad ?_).trans wrotePad
      exact fun written =>
        written.elim (fun both => fresh both.1) (fun behind => Nat.not_succ_le_self _ behind.2)

/-- The same of an object that is filled. -/
theorem initObject_settles {st after : MessageBuilder} (valid : st.Valid) {p : AnyPointerBuilder}
    (owned : store.owned st p.cell) (words : Nat) (encode : Int → UInt64)
    (fill
      : Writes
          (Behind (initObject p words encode st).1.1 (initObject p words encode st).1.2)
          (initObject p words encode st).2 after)
    : store.Settles (fun cell => cell = p.cell) st after
        (fun later =>
          PointsTo later p (initObject p words encode st).1 encode
          ∧ (initObject p words encode st).1.2 + words
              ≤ later.used (initObject p words encode st).1.1) := by
  intro later effect
  have whole := (fill.effect.widen (fun _ _ behind => Or.inr behind)).trans effect
    (fun _ _ both => Or.inl both)
  exact ⟨initObject_pointsTo valid owned words encode whole,
    used_le_of_effect whole (initObject_owned valid p words encode)⟩

/-- The words of a kind of pointer: neither far nor a capability, with an offset to read. -/
def Directs (encode : Int → UInt64) : Prop :=
  ∀ offset, OffsetInRange offset →
    (encode offset).toNat % 2 ^ 2 < 2
    ∧ (encode offset).toNat / 2 ^ 2 % 2 ^ 30 = (intToUInt 30 offset).toNat

/-- A struct pointer of fitting sizes directs to its offset. -/
theorem directs_encodeStructPointer {dataWords ptrCount : Nat} (smallData : dataWords < 2 ^ 16)
    (smallCount : ptrCount < 2 ^ 16)
    : Directs (fun offset => encodeStructPointer offset dataWords ptrCount) := by
  intro offset inRange
  have value := toNat_encodeStructPointer inRange smallData smallCount
  have small := toNat_intToUInt_lt inRange
  simp only [value]
  omega

/-- So does a list pointer. -/
theorem directs_encodeListPointer {elemSize elemCount : Nat} (smallSize : elemSize < 2 ^ 3)
    (smallCount : elemCount < 2 ^ 29)
    : Directs (fun offset => encodeListPointer offset elemSize elemCount) := by
  intro offset inRange
  have value := toNat_encodeListPointer inRange smallSize smallCount
  have small := toNat_intToUInt_lt inRange
  simp only [value]
  omega

/-- Such a word is neither a far pointer nor a capability. -/
theorem Directs.kinds {encode : Int → UInt64} (directs : Directs encode) {offset : Int}
    (inRange : OffsetInRange offset)
    : (encode offset &&& 3 == 2) = false ∧ (encode offset &&& 3 == 3) = false := by
  have kind := (directs offset inRange).1
  constructor <;> rw [and_three_beq, decide_eq_false_iff_not]
  · exact fun same => absurd (same ▸ kind) (by decide)
  · exact fun same => absurd (same ▸ kind) (by decide)

/-- A word of such a kind leads where its offset says, unless it is zero. -/
theorem resolveDirectPointer_of_directs {msg : Message} {seg word target : Nat}
    {encode : Int → UInt64} (directs : Directs encode) {offset : Int}
    (inRange : OffsetInRange offset)
    (read : readWord msg seg word = encode offset)
    (leads : Int.ofNat (word + 1) + offset = Int.ofNat target)
    : resolveDirectPointer msg seg word
      = if encode offset = 0 then none
        else
          some
            { msg := msg, tagSeg := seg, tagWord := word, targetSeg := seg, targetWord := target }
    := by
  have field := (directs offset inRange).2
  obtain ⟨two, three⟩ := directs.kinds inRange
  have place : toNat? (Int.ofNat target) = some target := by
    rw [toNat?, if_neg (by simp)]
    rfl
  rw [resolveDirectPointer, read, pointerTarget_of_field inRange word field, leads, place]
  simp only [beq_iff_eq, three, two, Bool.false_eq_true, if_false, Option.map_some]

/-- The checks refuse a target that is no word of the segment, even of an object without words. -/
theorem resolveDirectPointerChecked_of_directs {st : MessageBuilder} (valid : st.Valid)
    {seg word target : Nat} (owned : store.owned st (seg, word)) {encode : Int → UInt64}
    (directs : Directs encode) {offset : Int} (inRange : OffsetInRange offset)
    (read : readWord (buildMessage st) seg word = encode offset)
    (leads : Int.ofNat (word + 1) + offset = Int.ofNat target)
    : resolveDirectPointerChecked (buildMessage st) seg word
      = if encode offset = 0 then .ok none
        else if target < st.used seg then
          .ok (some { msg := buildMessage st, tagSeg := seg, tagWord := word, targetSeg := seg,
                      targetWord := target })
        else .error "pointer target out of bounds" := by
  have field := (directs offset inRange).2
  obtain ⟨two, three⟩ := directs.kinds inRange
  have place : toNat? (Int.ofNat target) = some target := by
    rw [toNat?, if_neg (by simp)]
    rfl
  rw [resolveDirectPointerChecked, readWordChecked_buildMessage valid owned, read]
  simp only [bind, Except.bind, beq_iff_eq, three, two, Bool.false_eq_true, if_false,
    pointerTarget_of_field inRange word field, leads, place, segmentWordCount_buildMessage valid]
  rfl

/-- What a pointer to a place resolves to: the word that encodes it is read where the
resolution says, and only if that word is zero there is nothing.
-/
structure ResolvesTo (st : MessageBuilder) (p : AnyPointerBuilder) (place : Nat × Nat)
    (word : UInt64) (tagSeg tagWord : Nat) : Prop where
  owned : store.owned st (tagSeg, tagWord)
  read : readWord (buildMessage st) tagSeg tagWord = word
  resolved
    : resolvePointer (p.reader st)
      = if word = 0 then none
        else
          some { msg := buildMessage st, tagSeg := tagSeg, tagWord := tagWord,
                 targetSeg := place.1, targetWord := place.2 }
  checked
    : resolvePointerChecked (p.reader st)
      = if word = 0 then .ok none
        else if place.2 < st.used place.1 then
          .ok (some { msg := buildMessage st, tagSeg := tagSeg, tagWord := tagWord,
                      targetSeg := place.1, targetWord := place.2 })
        else .error "pointer target out of bounds"
  notCapability : (readWord (buildMessage st) p.seg p.word &&& 3 == 3) = false

/-- A pointer to its own segment is resolved by its own word. -/
theorem resolvesTo_direct {st : MessageBuilder} {p : AnyPointerBuilder} {place : Nat × Nat}
    {encode : Int → UInt64} (valid : st.Valid) (directs : Directs encode) (same : place.1 = p.seg)
    (owned : store.owned st p.cell) {offset : Int} (inRange : OffsetInRange offset)
    (word : st.wordAt p.cell = wordBytes (encode offset))
    (leads : Int.ofNat (p.word + 1) + offset = Int.ofNat place.2)
    : ResolvesTo st p place (encode offset) p.seg p.word := by
  have read := readWord_of_wordAt valid owned word
  have resolved := resolveDirectPointer_of_directs directs inRange read leads
  have checked := resolveDirectPointerChecked_of_directs valid owned directs inRange read leads
  obtain ⟨notFar, notCapability⟩ := directs.kinds inRange
  refine ⟨owned, read, ?_, ?_, read ▸ notCapability⟩
  · rw [same, ← resolved, resolvePointer]
    simp only [AnyPointerBuilder.reader, read, bne, notFar, Bool.not_false, if_true, beq_iff_eq]
    split_ifs with zero
    · rw [resolved, if_pos zero]
    · rfl
  · rw [same, ← checked, resolvePointerChecked, AnyPointerBuilder.reader,
      readWordChecked_buildMessage valid owned, read]
    simp only [bind, Except.bind, bne, notFar, notCapability, Bool.not_false, if_true,
      beq_iff_eq, Bool.false_eq_true, if_false]
    split_ifs with zero
    · rw [checked, if_pos zero]
      rfl
    · rfl

/-- A far pointer is resolved by the word that it lands on. -/
theorem resolvesTo_far {st : MessageBuilder} {p : AnyPointerBuilder} {place : Nat × Nat}
    {encode : Int → UInt64} (valid : st.Valid) (addressable : st.Addressable)
    (directs : Directs encode) {pad : Nat} (behind : place.2 = pad + 1)
    (small : pad < 2 ^ 29) (owned : store.owned st p.cell)
    (ownedPad : store.owned st (place.1, pad))
    (word : st.wordAt p.cell = wordBytes (encodeFarPointer false place.1 pad))
    (padWord : st.wordAt (place.1, pad) = wordBytes (encode 0))
    : ResolvesTo st p place (encode 0) place.1 pad := by
  have read := readWord_of_wordAt valid owned word
  have readPad := readWord_of_wordAt valid ownedPad padWord
  have segment := segment_lt_of_owned valid ownedPad
  have bound : place.1 < 2 ^ 32 := Nat.lt_of_lt_of_le segment addressable.segments
  have inRange : OffsetInRange 0 := by constructor <;> decide
  have leads : Int.ofNat (pad + 1) + 0 = Int.ofNat place.2 := by rw [behind, Int.add_zero]
  have resolved := resolveDirectPointer_of_directs directs inRange readPad leads
  have checked := resolveDirectPointerChecked_of_directs valid ownedPad directs inRange readPad
    leads
  obtain ⟨some, isFar, notCapability, single, seg, landing⟩ := encodeFarPointer_parts bound small
  have listed : ¬ place.1 ≥ (buildMessage st).segments.length := by
    rw [length_segments_buildMessage]
    exact Nat.not_le.mpr segment
  refine ⟨ownedPad, readPad, ?_, ?_, read ▸ notCapability⟩
  · rw [← resolved, resolvePointer]
    simp only [AnyPointerBuilder.reader, read, beq_iff_eq, if_neg some, bne, isFar,
      Bool.not_true, Bool.false_eq_true, if_false, seg, landing, if_neg listed, single]
  · rw [← checked, resolvePointerChecked, AnyPointerBuilder.reader,
      readWordChecked_buildMessage valid owned, read]
    simp only [bind, Except.bind, beq_iff_eq, if_neg some, bne, isFar, notCapability,
      Bool.not_true, Bool.false_eq_true, if_false, seg, landing, if_neg listed, single]

/-- A pointer that was written is resolved to its place, near or far. -/
theorem PointsTo.resolve {st : MessageBuilder} {p : AnyPointerBuilder} {place : Nat × Nat}
    {encode : Int → UInt64} (points : PointsTo st p place encode) (valid : st.Valid)
    (addressable : st.Addressable) (inside : place.2 ≤ st.used place.1) (directs : Directs encode)
    : ∃ tagSeg tagWord offset, OffsetInRange offset
        ∧ ResolvesTo st p place (encode offset) tagSeg tagWord := by
  have words := addressable.words place.1
  cases points with
  | direct same owned word =>
      have ownedWord : p.word < st.used p.seg := owned
      have pointerWords := addressable.words p.seg
      have inRange : OffsetInRange (Int.ofNat place.2 - Int.ofNat (p.word + 1)) := by
        constructor <;> simp only [Int.ofNat_eq_natCast] <;> omega
      exact
        ⟨p.seg, p.word, _, inRange,
          resolvesTo_direct valid directs same owned inRange word (by omega)⟩
  | far pad behind owned ownedPad word padWord =>
      have small : pad < 2 ^ 29 := by omega
      have inRange : OffsetInRange 0 := by constructor <;> decide
      exact
        ⟨place.1, pad, 0, inRange,
          resolvesTo_far valid addressable directs behind small owned ownedPad word padWord⟩

-----------------------------------------------------------------------------------------
-- The objects that are decoded
-----------------------------------------------------------------------------------------

section Decoded

variable {st : MessageBuilder} {p : AnyPointerBuilder} {place : Nat × Nat}

/-- What a checked decoding finds of an object: nothing but an object without words at the end
of its segment is refused.
-/
def acceptedAt {α : Type} (st : MessageBuilder) (place : Nat × Nat) (found : α) : Except String α :=
  if place.2 < st.used place.1 then .ok found else .error "pointer target out of bounds"

/-- The struct of a pointer; one without words may have a pointer that is null. -/
theorem decodeStructPtr_of_pointsTo {dataWords ptrCount : Nat}
    (points : PointsTo st p place (fun offset => encodeStructPointer offset dataWords ptrCount))
    (valid : st.Valid) (addressable : st.Addressable)
    (inside : place.2 + (dataWords + ptrCount) ≤ st.used place.1) (smallData : dataWords < 2 ^ 16)
    (smallCount : ptrCount < 2 ^ 16)
    : (∃ r : StructReader,
        r = { msg := buildMessage st, seg := place.1, dataOff := place.2, dataWords := dataWords,
              ptrOff := place.2 + dataWords, ptrCount := ptrCount }
        ∧ decodeStructPtr (p.reader st) = some r
        ∧ decodeStructPtrChecked (p.reader st) = acceptedAt st place r)
      ∨ dataWords = 0
        ∧ ptrCount = 0
        ∧ resolvePointer (p.reader st) = none
        ∧ resolvePointerChecked (p.reader st) = .ok none
        ∧ (readWord (buildMessage st) p.seg p.word &&& 3 == 3) = false := by
  obtain ⟨tagSeg, tagWord, offset, inRange, found⟩ :=
    points.resolve valid addressable (Nat.le_of_add_right_le inside)
      (directs_encodeStructPointer smallData smallCount)
  have resolved := found.resolved
  have checked := found.checked
  by_cases null : encodeStructPointer offset dataWords ptrCount = 0
  · have value := toNat_encodeStructPointer inRange smallData smallCount
    rw [null, UInt64.toNat_zero] at value
    rw [if_pos null] at resolved checked
    exact .inr ⟨by omega, by omega, resolved, checked, found.notCapability⟩
  · rw [if_neg null] at resolved checked
    obtain ⟨kind, data, count⟩ := encodeStructPointer_parts inRange smallData smallCount
    refine .inl ⟨_, rfl, ?_, ?_⟩
    · simp only [decodeStructPtr, resolved, found.read, bne, kind, Bool.not_true,
        Bool.false_eq_true, if_false, data, count]
    · rw [decodeStructPtrChecked, checked, acceptedAt]
      split_ifs with target
      · simp only [bind, Except.bind, readWordChecked_buildMessage valid found.owned, found.read,
          bne, kind, Bool.not_true, Bool.false_eq_true, if_false, data, count,
          segmentWordCount_buildMessage valid, if_pos inside]
        rfl
      · rfl

/-- A list of anything but structs. -/
theorem decodeListPtr_of_pointsTo {elemSize elemCount : Nat}
    (points : PointsTo st p place (fun offset => encodeListPointer offset elemSize elemCount))
    (valid : st.Valid) (addressable : st.Addressable)
    (inside : place.2 + listDataWords elemSize elemCount ≤ st.used place.1)
    (plain : elemSize < elemSizeInlineComposite) (smallCount : elemCount < 2 ^ 29)
    : ∃ d : ListPointer,
        d = { msg := buildMessage st, seg := place.1, startWord := place.2,
              elemSize := elemSize, elemCount := elemCount, structDataWords := 0,
              structPtrCount := 0, inlineComposite := false }
        ∧ decodeListPtr (p.reader st) = some d
        ∧ decodeListPtrChecked (p.reader st) = acceptedAt st place (some d) := by
  have smallSize : elemSize < 2 ^ 3 := Nat.lt_of_lt_of_le plain (by decide)
  obtain ⟨tagSeg, tagWord, offset, inRange, found⟩ :=
    points.resolve valid addressable (Nat.le_of_add_right_le inside)
      (directs_encodeListPointer smallSize smallCount)
  obtain ⟨some, kind, size, count⟩ := encodeListPointer_parts inRange smallSize smallCount
  have resolved := found.resolved
  have checked := found.checked
  rw [if_neg some] at resolved checked
  refine ⟨_, rfl, ?_, ?_⟩
  · simp only [decodeListPtr, resolved, found.read, bne, kind, Bool.not_true, Bool.false_eq_true,
      if_false, size, if_neg (Nat.ne_of_lt plain), plainList, count]
  · rw [decodeListPtrChecked, checked, acceptedAt]
    split_ifs with target
    · simp only [bind, Except.bind, readWordChecked_buildMessage valid found.owned, found.read,
        bne, kind, Bool.not_true, Bool.false_eq_true, if_false, size, count,
        if_neg (Nat.ne_of_lt plain), segmentWordCount_buildMessage valid, if_pos inside, plainList]
      rfl
    · rfl

/-- A list of structs, with its tag in front. -/
theorem decodeListPtr_of_pointsTo_tag {words dataWords ptrCount elemCount : Nat}
    (points
      : PointsTo st p place
          (fun offset => encodeListPointer offset elemSizeInlineComposite words))
    (valid : st.Valid) (addressable : st.Addressable)
    (inside : place.2 + (1 + words) ≤ st.used place.1)
    (room : elemCount * (dataWords + ptrCount) ≤ words)
    (tag : st.wordAt place = wordBytes (encodeStructTag elemCount dataWords ptrCount))
    (smallElems : elemCount < 2 ^ 30) (smallData : dataWords < 2 ^ 16)
    (smallCount : ptrCount < 2 ^ 16)
    : ∃ d : ListPointer,
        d = { msg := buildMessage st, seg := place.1, startWord := place.2 + 1,
              elemSize := elemSizeInlineComposite, elemCount := elemCount,
              structDataWords := dataWords, structPtrCount := ptrCount,
              inlineComposite := true }
        ∧ decodeListPtr (p.reader st) = some d
        ∧ decodeListPtrChecked (p.reader st) = .ok (some d) := by
  have space := addressable.words place.1
  have smallWords : words < 2 ^ 29 := by omega
  have owned : place.2 < st.used place.1 := by omega
  obtain ⟨tagSeg, tagWord, offset, inRange, found⟩ :=
    points.resolve valid addressable (Nat.le_of_lt owned)
      (directs_encodeListPointer (by decide) smallWords)
  have readTag : readWord (buildMessage st) place.1 place.2 = _ :=
    readWord_of_wordAt valid owned tag
  have readTagChecked := readWordChecked_buildMessage valid (show store.owned st place from owned)
  rw [readTag] at readTagChecked
  obtain ⟨some, kind, size, wordCount⟩ :=
    encodeListPointer_parts inRange (show elemSizeInlineComposite < 2 ^ 3 by decide) smallWords
  obtain ⟨tagKind, elems, data, count⟩ := encodeStructTag_parts smallElems smallData smallCount
  have resolved := found.resolved
  have checked := found.checked
  rw [if_neg some] at resolved checked
  rw [if_pos owned] at checked
  refine ⟨_, rfl, ?_, ?_⟩
  · simp only [decodeListPtr, resolved, found.read, bne, kind, Bool.not_true, Bool.false_eq_true,
      if_false, size, if_true, readTag, tagKind, inlineCompositeList, elems, data, count]
  · have fits : ¬ place.2 + 1 + words > st.used place.1 := by omega
    simp only [decodeListPtrChecked, checked, bind, Except.bind,
      readWordChecked_buildMessage valid found.owned, found.read, bne, kind, Bool.not_true,
      Bool.false_eq_true, if_false, size, if_true, wordCount, segmentWordCount_buildMessage valid,
      if_neg fits, readTagChecked, tagKind, elems, data, count, if_neg (Nat.not_lt.mpr room),
      inlineCompositeList]
    rfl

end Decoded

end Capnp
