import Capnp.Runtime.PackedGroups

/-! What is packed is read back: packing gives whole groups for the words of the bytes, the
last one filled up with zeros, and never more than was reserved for it.
-/

namespace Capnp

-----------------------------------------------------------------------------------------
-- Runs
-----------------------------------------------------------------------------------------

section Runs

variable {test : Nat → Bool} {wordCount left k : Nat}

/-- A run takes no more words than it may. -/
theorem runLength_le : runLength test wordCount left k ≤ left := by
  induction left generalizing k with
  | zero => exact Nat.le_refl _
  | succ left ih =>
      unfold runLength
      split
      · exact Nat.succ_le_succ ih
      · exact Nat.zero_le _

/-- A run ends at the last word. -/
theorem runLength_fits (inside : k ≤ wordCount)
    : k + runLength test wordCount left k ≤ wordCount := by
  induction left generalizing k with
  | zero => exact inside
  | succ left ih =>
      unfold runLength
      split
      · next go =>
          simp only [Bool.and_eq_true, decide_eq_true_eq] at go
          have := ih (k := k + 1) go.1
          omega
      · exact inside

/-- The words of a run pass the test. -/
theorem test_of_lt_runLength {r : Nat} (within : r < runLength test wordCount left k)
    : test (k + r) := by
  induction left generalizing k r with
  | zero => cases within
  | succ left ih =>
      unfold runLength at within
      split at within
      · next go =>
          simp only [Bool.and_eq_true, decide_eq_true_eq] at go
          cases r with
          | zero => exact go.2
          | succ r =>
              rw [← Nat.succ_add_eq_add_succ]
              exact ih (Nat.lt_of_succ_lt_succ within)
      · cases within

/-- A run that could go on stops at a word that does not pass. -/
theorem test_runLength (room : runLength test wordCount left k < left)
    (more : k + runLength test wordCount left k < wordCount)
    : test (k + runLength test wordCount left k) = false := by
  induction left generalizing k with
  | zero => cases room
  | succ left ih =>
      unfold runLength at room more ⊢
      split
      · next go =>
          rw [if_pos go] at room more
          rw [← Nat.succ_add_eq_add_succ] at more ⊢
          exact ih (Nat.lt_of_succ_lt_succ room) more
      · next stop =>
          rw [if_neg stop] at more
          simpa [show k < wordCount by omega] using stop

end Runs

-----------------------------------------------------------------------------------------
-- Words
-----------------------------------------------------------------------------------------

/-- The bytes of `count` words from the word `i` on. -/
def packedWords (bytes : List UInt8) (i count : Nat) : List UInt8 :=
  (List.range count).flatMap (fun r => packedWord bytes (i + r))

/-- Words from some place on, split in two. -/
theorem packedWords_add (bytes : List UInt8) (i count more : Nat)
    : packedWords bytes i (count + more)
      = packedWords bytes i count ++ packedWords bytes (i + count) more := by
  simp only [packedWords, List.range_add, List.flatMap_append, List.flatMap_map, Nat.add_assoc]

/-- A single word. -/
theorem packedWords_one (bytes : List UInt8) (i : Nat)
    : packedWords bytes i 1 = packedWord bytes i := by
  simp [packedWords]

/-- A word has eight bytes, also at the end of the input. -/
theorem length_packedWord (bytes : List UInt8) (i : Nat) : (packedWord bytes i).length = 8 := by
  simp [packedWord]

/-- So many words have eight times as many bytes. -/
theorem length_packedWords (bytes : List UInt8) (i count : Nat)
    : (packedWords bytes i count).length = count * 8 := by
  simp [packedWords, List.length_flatMap, length_packedWord]

/-- The bytes of a word are those of the input. -/
theorem getD_packedWord (bytes : List UInt8) (i : Nat) {j : Nat} (inWord : j < 8)
    : (packedWord bytes i).getD j 0 = readByteArray bytes (i * 8 + j) := by
  rw [List.getD_eq_getElem _ _ (by rw [length_packedWord]; exact inWord)]
  simp [packedWord]

/-- A word whose bytes are all zero. -/
theorem packedWord_of_zero {bytes : List UInt8} {i : Nat}
    (zero : ∀ j < 8, readByteArray bytes (i * 8 + j) = 0)
    : packedWord bytes i = List.replicate 8 0 := by
  refine List.eq_replicate_iff.mpr ⟨length_packedWord bytes i, fun byte member => ?_⟩
  obtain ⟨j, inWord, rfl⟩ := List.mem_map.mp member
  exact zero j (List.mem_range.mp inWord)

/-- Words that are all zero are as many zero bytes. -/
theorem packedWords_of_zero {bytes : List UInt8} {i count : Nat}
    (zero : ∀ r < count, wordIsZeroBytes bytes (i + r))
    : packedWords bytes i count = List.replicate (count * 8) 0 := by
  refine List.eq_replicate_iff.mpr ⟨length_packedWords bytes i count, fun byte member => ?_⟩
  obtain ⟨r, within, member⟩ := List.mem_flatMap.mp member
  have word := zero r (List.mem_range.mp within)
  simp only [wordIsZeroBytes, List.all_eq_true, List.mem_range, beq_iff_eq] at word
  rw [packedWord_of_zero word] at member
  exact List.eq_of_mem_replicate member

/-- Taking bytes in two parts. -/
theorem takeOrZero_add (count more : Nat) (rest : List UInt8)
    : takeOrZero (count + more) rest = takeOrZero count rest ++ takeOrZero more (rest.drop count)
    := by
  simp [takeOrZero, List.range_add, List.getD, List.getElem?_drop, Function.comp_def]

/-- The words of the bytes are the bytes, filled up with zeros. -/
theorem packedWords_eq_takeOrZero (bytes : List UInt8) (count : Nat)
    : packedWords bytes 0 count = takeOrZero (count * 8) bytes := by
  induction count with
  | zero => rfl
  | succ count ih =>
      rw [packedWords_add, ih, packedWords_one, Nat.succ_mul, takeOrZero_add]
      simp [packedWord, takeOrZero, readByteArray, List.getD, List.getElem?_drop]

/-- The words hold all bytes. -/
theorem le_packWordCount (bytes : List UInt8) : bytes.length ≤ packWordCount bytes * 8 := by
  rw [packWordCount]
  omega

/-- All words are the input, filled up with zeros. -/
theorem packedWords_packWordCount (bytes : List UInt8)
    : packedWords bytes 0 (packWordCount bytes)
      = bytes ++ List.replicate (packWordCount bytes * 8 - bytes.length) 0 := by
  have enough := le_packWordCount bytes
  rw [packedWords_eq_takeOrZero, takeOrZero_eq_take, List.take_of_length_le]
  rw [List.length_append, List.length_replicate]
  omega

-----------------------------------------------------------------------------------------
-- The groups that are put out
-----------------------------------------------------------------------------------------

/-- A tag puts the zero bytes back in their places, by induction on the bits. -/
theorem takeTagged_filter {tag : UInt8} {bits : List Nat} {byte : Nat → UInt8}
    (same : ∀ j ∈ bits, testBit8 tag j = (byte j != 0))
    : takeTagged tag bits ((bits.map byte).filter (· != 0)) = (bits.map byte, []) := by
  induction bits with
  | nil => rfl
  | cons j more ih =>
      have here := same j List.mem_cons_self
      have later := ih (fun k member => same k (List.mem_cons_of_mem _ member))
      by_cases zero : byte j = 0
      · simp [takeTagged, here, zero, later]
      · simp [takeTagged, here, zero, later]

/-- The bits of a word's tag are those of its bytes. -/
theorem testBit8_wordTag_packedWord (bytes : List UInt8) (i : Nat)
    : ∀ j ∈ List.range 8,
        testBit8 (wordTag (packedWord bytes i)) j = (readByteArray bytes (i * 8 + j) != 0) := by
  intro j inWord
  rw [testBit8_wordTag _ (List.mem_range.mp inWord),
    getD_packedWord bytes i (List.mem_range.mp inWord)]

/-- A tag counts the bytes that are not zero. -/
theorem length_filter_packedWord (bytes : List UInt8) (i : Nat)
    : ((packedWord bytes i).filter (· != 0)).length
      = neededBytes (wordTag (packedWord bytes i)) := by
  rw [← List.countP_eq_length_filter, packedWord, List.countP_map, neededBytes]
  refine List.countP_congr (fun j inWord => ?_)
  have same := testBit8_wordTag_packedWord bytes i j inWord
  simp only [packedWord] at same
  rw [same]
  rfl

/-- The packer writes groups with the contents of its words, by induction on the words left. -/
theorem exists_groups_packFrom (bytes : List UInt8) {wordCount i : Nat} (inside : i ≤ wordCount)
    : ∃ groups,
        groupsWire groups = packFrom bytes wordCount i
        ∧ groupsContents groups = packedWords bytes i (wordCount - i) := by
  induction size : wordCount - i using Nat.strong_induction_on generalizing i with
  | _ left ih =>
      rw [packFrom]
      split
      · next more =>
          by_cases zero : wordTag (packedWord bytes i) = 0
          · let run := runLength (wordIsZeroBytes bytes) wordCount 255 (i + 1)
            have short : run ≤ 255 := runLength_le
            have fits : i + 1 + run ≤ wordCount := runLength_fits more
            obtain ⟨groups, wire, contents⟩ :=
              ih (wordCount - (i + 1 + run)) (by omega) fits rfl
            refine ⟨.zeroWords (UInt8.ofNat run) :: groups, ?_, ?_⟩
            · simp [zero, PackedGroup.wire, wire, run]
            · have number : (UInt8.ofNat run).toNat = run :=
                UInt8.toNat_ofNat_of_lt' (Nat.lt_succ_of_le short)
              have count : left = 1 + (run + (wordCount - (i + 1 + run))) := by omega
              rw [groupsContents_cons, contents, count, packedWords_add, packedWords_add,
                packedWords_one, PackedGroup.contents, number, List.append_assoc]
              congr 1
              · refine (packedWord_of_zero (fun j inWord => ?_)).symm
                rw [← getD_packedWord bytes i inWord]
                exact wordTag_eq_zero_iff.mp zero j inWord
              · congr 1
                exact (packedWords_of_zero (fun r within => test_of_lt_runLength within)).symm
          by_cases full : wordTag (packedWord bytes i) = 0xFF
          · let run := runLength (wordIsFullBytes bytes) wordCount 255 (i + 1)
            have short : run ≤ 255 := runLength_le
            have fits : i + 1 + run ≤ wordCount := runLength_fits more
            obtain ⟨groups, wire, contents⟩ :=
              ih (wordCount - (i + 1 + run)) (by omega) fits rfl
            have number : (UInt8.ofNat run).toNat = run :=
              UInt8.toNat_ofNat_of_lt' (Nat.lt_succ_of_le short)
            refine ⟨.fullWords (packedWord bytes i) (UInt8.ofNat run)
              (packedWords bytes (i + 1) run) (length_packedWord bytes i)
              (by rw [length_packedWords, number]) :: groups, ?_, ?_⟩
            · simp [full, PackedGroup.wire, wire, run, packedWords]
            · have count : left = 1 + (run + (wordCount - (i + 1 + run))) := by omega
              rw [groupsContents_cons, contents, count, packedWords_add, packedWords_add,
                packedWords_one, PackedGroup.contents, List.append_assoc]
          · obtain ⟨groups, wire, contents⟩ := ih (wordCount - (i + 1)) (by omega) more rfl
            refine ⟨.taggedWord (wordTag (packedWord bytes i))
              ((packedWord bytes i).filter (· != 0)) zero full
              (length_filter_packedWord bytes i) :: groups, ?_, ?_⟩
            · simp [zero, full, PackedGroup.wire, wire]
            · have count : left = 1 + (wordCount - (i + 1)) := by omega
              rw [groupsContents_cons, contents, count, packedWords_add, packedWords_one,
                PackedGroup.contents]
              congr 1
              exact congrArg Prod.fst
                (takeTagged_filter (testBit8_wordTag_packedWord bytes i))
      · have none : left = 0 := by omega
        rw [none]
        exact ⟨[], rfl, rfl⟩

/-- Packed bytes are groups whose contents are the input, filled up to whole words. -/
theorem exists_groups_pack (bytes : List UInt8)
    : ∃ groups,
        groupsWire groups = pack bytes
        ∧ groupsContents groups
          = bytes ++ List.replicate (packWordCount bytes * 8 - bytes.length) 0 := by
  obtain ⟨groups, wire, contents⟩ :=
    exists_groups_packFrom bytes (Nat.zero_le (packWordCount bytes))
  exact ⟨groups, wire, by rw [contents, Nat.sub_zero, packedWords_packWordCount]⟩

/-- The checked reader accepts packed bytes. -/
theorem unpackChecked_pack (bytes : List UInt8)
    : unpackChecked (pack bytes)
      = .ok (bytes ++ List.replicate (packWordCount bytes * 8 - bytes.length) 0) := by
  obtain ⟨groups, wire, contents⟩ := exists_groups_pack bytes
  rw [← wire, ← contents]
  exact unpackChecked_groups groups

/-- The plain reader gives packed bytes back. -/
theorem unpackPlain_pack (bytes : List UInt8)
    : unpack (pack bytes)
      = bytes ++ List.replicate (packWordCount bytes * 8 - bytes.length) 0 := by
  obtain ⟨groups, wire, contents⟩ := exists_groups_pack bytes
  rw [← wire, ← contents]
  have plain := unpack_groups groups []
  rwa [unpack_nil, List.append_nil, List.append_nil] at plain

/-- Packed bytes are accepted, and both readers give the bytes back, filled up to a whole
number of words.
-/
theorem unpack_pack (bytes : List UInt8)
    : unpackChecked (pack bytes)
        = .ok (bytes ++ List.replicate (packWordCount bytes * 8 - bytes.length) 0)
      ∧ unpack (pack bytes)
        = bytes ++ List.replicate (packWordCount bytes * 8 - bytes.length) 0 :=
  ⟨unpackChecked_pack bytes, unpackPlain_pack bytes⟩

-----------------------------------------------------------------------------------------
-- How much is put out
-----------------------------------------------------------------------------------------

/-- The test for a word without zero bytes is the one of its tag. -/
theorem wordTag_eq_full_of_test {bytes : List UInt8} {i : Nat}
    : wordTag (packedWord bytes i) = 0xFF ↔ wordIsFullBytes bytes i := by
  rw [wordTag_eq_full_iff]
  simp only [wordIsFullBytes, List.all_eq_true, List.mem_range, bne_iff_ne]
  exact forall₂_congr (fun j inWord => by rw [getD_packedWord bytes i inWord])

/-- A word that is not full has at most seven bytes to put out. -/
theorem length_filter_lt {bytes : List UInt8} {i : Nat}
    (full : wordTag (packedWord bytes i) ≠ 0xFF)
    : ((packedWord bytes i).filter (· != 0)).length < 8 := by
  rw [Ne, wordTag_eq_full_iff] at full
  push Not at full
  obtain ⟨j, inWord, zero⟩ := full
  have present : j < (packedWord bytes i).length := by
    rw [length_packedWord]
    exact inWord
  rw [List.getD_eq_getElem _ _ present] at zero
  rw [← length_packedWord bytes i]
  exact List.length_filter_lt_length_iff_exists.mpr
    ⟨_, List.getElem_mem present, by simp [zero]⟩

/-- Nine bytes for each word and one more, or not even that one where the first word is not
full: a run of full words costs two bytes, and the word behind it is not full or the run
was long.
-/
theorem length_packFrom_le (bytes : List UInt8) {wordCount i : Nat} (inside : i ≤ wordCount)
    : (packFrom bytes wordCount i).length ≤ 9 * (wordCount - i) + 1
      ∧ (wordIsFullBytes bytes i = false →
          (packFrom bytes wordCount i).length ≤ 9 * (wordCount - i)) := by
  induction size : wordCount - i using Nat.strong_induction_on generalizing i with
  | _ left ih =>
      rw [packFrom]
      split
      · next more =>
          by_cases zero : wordTag (packedWord bytes i) = 0
          · obtain ⟨run, isRun⟩
                : ∃ run, runLength (wordIsZeroBytes bytes) wordCount 255 (i + 1) = run :=
              ⟨_, rfl⟩
            have fits : i + 1 + run ≤ wordCount := isRun ▸ runLength_fits more
            have later := (ih (wordCount - (i + 1 + run)) (by omega) fits rfl).1
            simp only [zero, isRun, beq_self_eq_true, if_true, List.length_append,
              List.length_cons, List.length_nil]
            omega
          by_cases full : wordTag (packedWord bytes i) = 0xFF
          · obtain ⟨run, isRun⟩
                : ∃ run, runLength (wordIsFullBytes bytes) wordCount 255 (i + 1) = run :=
              ⟨_, rfl⟩
            have fits : i + 1 + run ≤ wordCount := isRun ▸ runLength_fits more
            obtain ⟨later, behind⟩ := ih (wordCount - (i + 1 + run)) (by omega) fits rfl
            have rest
                : (packFrom bytes wordCount (i + 1 + run)).length
                  ≤ 9 * (wordCount - (i + 1 + run)) + run := by
              by_cases long : 255 ≤ run
              · omega
              by_cases last : wordCount ≤ i + 1 + run
              · rw [packFrom, if_neg (Nat.not_lt.mpr last)]
                exact Nat.zero_le _
              · subst isRun
                have := behind (test_runLength (by omega) (by omega))
                omega
            have extra
                : ((List.range run).flatMap (fun r => packedWord bytes (i + 1 + r))).length
                  = run * 8 :=
              length_packedWords bytes (i + 1) run
            have isFull := wordTag_eq_full_of_test.mp full
            simp only [full, isRun, full_ne_zero, Bool.false_eq_true, beq_self_eq_true, if_false,
              if_true, List.length_append, List.length_cons, List.length_nil, length_packedWord,
              isFull, Bool.true_eq_false, false_implies, and_true]
            omega
          · have later := (ih (i := i + 1) (wordCount - (i + 1)) (by omega) more rfl).1
            have few := length_filter_lt full
            have notZero : (wordTag (packedWord bytes i) == 0) = false := by simpa using zero
            have notFull : (wordTag (packedWord bytes i) == 0xFF) = false := by simpa using full
            simp only [notZero, notFull, Bool.false_eq_true, if_false, List.length_append,
              List.length_cons, List.length_nil]
            omega
      · exact ⟨Nat.zero_le _, fun _ => Nat.zero_le _⟩

/-- The room that is reserved for packed bytes. -/
def packCapacity (bytes : List UInt8) : Nat :=
  bytes.length + packWordCount bytes + 16

/-- What is packed never outgrows the room that is reserved for it. -/
theorem length_pack_le (bytes : List UInt8)
    : (pack bytes).length ≤ 9 * packWordCount bytes + 1
      ∧ (pack bytes).length ≤ packCapacity bytes := by
  have bound := (length_packFrom_le bytes (Nat.zero_le (packWordCount bytes))).1
  have words : packWordCount bytes * 8 ≤ bytes.length + 7 := by
    rw [packWordCount]
    omega
  rw [pack, packCapacity]
  omega

end Capnp
