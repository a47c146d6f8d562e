import Mathlib.Data.Nat.Bitwise
import Capnp.Runtime.MessageBytes

/-! The packed form of a byte string: each word is a tag that says which of its bytes are not
zero, and those bytes. A word of zeros and a word without one are followed by a run of more.
-/

namespace Capnp

def bitMask8 (i : Nat) : UInt8 :=
  1 <<< UInt8.ofNat i

def testBit8 (tag : UInt8) (i : Nat) : Bool :=
  (tag >>> UInt8.ofNat i) &&& 1 == 1

def wordIsZeroBytes (bytes : List UInt8) (wordOff : Nat) : Bool :=
  (List.range 8).all (fun i => readByteArray bytes (wordOff * 8 + i) == 0)

def wordIsFullBytes (bytes : List UInt8) (wordOff : Nat) : Bool :=
  (List.range 8).all (fun i => readByteArray bytes (wordOff * 8 + i) != 0)

def wordTag (word : List UInt8) : UInt8 :=
  (List.range 8).foldl
    (fun tag i => if word.getD i 0 != 0 then tag ||| bitMask8 i else tag) 0

/-- The bytes of one word; behind the end they are zero. -/
def packedWord (bytes : List UInt8) (wordOff : Nat) : List UInt8 :=
  (List.range 8).map (fun j => readByteArray bytes (wordOff * 8 + j))

/-- The loop that counts a run from the word `k` on, up to `left` words. -/
def runLength (test : Nat → Bool) (wordCount : Nat) : Nat → Nat → Nat
  | 0, _ => 0
  | left + 1, k =>
      if k < wordCount && test k then runLength test wordCount left (k + 1) + 1 else 0

/-- The bytes that are put out from the word `i` on. -/
def packFrom (bytes : List UInt8) (wordCount i : Nat) : List UInt8 :=
  if i < wordCount then
    let buf := packedWord bytes i
    let tag := wordTag buf
    if tag == 0 then
      let run := runLength (wordIsZeroBytes bytes) wordCount 255 (i + 1)
      [tag, UInt8.ofNat run] ++ packFrom bytes wordCount (i + 1 + run)
    else if tag == 0xFF then
      let run := runLength (wordIsFullBytes bytes) wordCount 255 (i + 1)
      let extra := (List.range run).flatMap (fun r => packedWord bytes (i + 1 + r))
      [tag] ++ buf ++ [UInt8.ofNat run] ++ extra ++ packFrom bytes wordCount (i + 1 + run)
    else
      [tag] ++ buf.filter (· != 0) ++ packFrom bytes wordCount (i + 1)
  else []
termination_by wordCount - i

/-- How many words the bytes fill, the last one maybe in part. -/
def packWordCount (bytes : List UInt8) : Nat :=
  (bytes.length + 7) / 8

def pack (bytes : List UInt8) : List UInt8 :=
  packFrom bytes (packWordCount bytes) 0

/-- The loop over the bits of a tag: a byte is taken for each that is set, or zero where none
is left.
-/
def takeTagged (tag : UInt8) : List Nat → List UInt8 → List UInt8 × List UInt8
  | [], rest => ([], rest)
  | j :: more, rest =>
      if testBit8 tag j then
        let (word, left) := takeTagged tag more rest.tail
        (rest.headD 0 :: word, left)
      else
        let (word, left) := takeTagged tag more rest
        (0 :: word, left)

/-- `count` bytes, with zeros where none is left. -/
def takeOrZero (count : Nat) (rest : List UInt8) : List UInt8 :=
  (List.range count).map (fun i => rest.getD i 0)

/-- A tag leaves no more bytes than there were. -/
theorem length_snd_takeTagged_le (tag : UInt8) (bits : List Nat) (rest : List UInt8)
    : (takeTagged tag bits rest).2.length ≤ rest.length := by
  induction bits generalizing rest with
  | nil => exact Nat.le_refl _
  | cons j more ih =>
      simp only [takeTagged]
      split
      · exact Nat.le_trans (ih rest.tail) (by simp)
      · exact ih rest

def unpack : List UInt8 → List UInt8
  | [] => []
  | tag :: rest =>
      if tag == 0 then
        let word := List.replicate 8 0
        match rest with
        | [] => word
        | run :: rest => word ++ List.replicate (run.toNat * 8) 0 ++ unpack rest
      else if tag == 0xFF then
        let word := takeOrZero 8 rest
        match _ : rest.drop 8 with
        | [] => word
        | run :: rest' =>
            word ++ takeOrZero (run.toNat * 8) rest' ++ unpack (rest'.drop (run.toNat * 8))
      else
        let taken := takeTagged tag (List.range 8) rest
        taken.1 ++ unpack taken.2
termination_by bytes => bytes.length
decreasing_by
  · simp only [List.length_cons]
    omega
  · have := congrArg List.length ‹rest.drop 8 = _›
    simp only [List.length_drop, List.length_cons] at this ⊢
    omega
  · have := length_snd_takeTagged_le tag (List.range 8) rest
    simp only [List.length_cons]
    omega

/-- How many bytes a tag asks for. -/
def neededBytes (tag : UInt8) : Nat :=
  (List.range 8).countP (testBit8 tag)

/-- The checked loop: `out` was put out for the bytes before. -/
def unpackCheckedFrom (out : List UInt8) : List UInt8 → Except String (List UInt8)
  | [] => .ok out
  | tag :: rest =>
      if tag == 0 then
        let out := out ++ List.replicate 8 0
        match rest with
        | [] => .error "truncated zero run"
        | run :: rest => unpackCheckedFrom (out ++ List.replicate (run.toNat * 8) 0) rest
      else if tag == 0xFF then
        if rest.length < 8 then .error "truncated nonzero word"
        else
          let out := out ++ rest.take 8
          match _ : rest.drop 8 with
          | [] => .error "truncated nonzero run"
          | run :: rest' =>
              if rest'.length < run.toNat * 8 then .error "truncated nonzero run data"
              else
                unpackCheckedFrom (out ++ rest'.take (run.toNat * 8))
                  (rest'.drop (run.toNat * 8))
      else if rest.length < neededBytes tag then .error "truncated tag data"
      else
        let taken := takeTagged tag (List.range 8) rest
        unpackCheckedFrom (out ++ taken.1) taken.2
termination_by bytes => bytes.length
decreasing_by
  · simp only [List.length_cons]
    omega
  · have := congrArg List.length ‹rest.drop 8 = _›
    simp only [List.length_drop, List.length_cons] at this ⊢
    omega
  · have := length_snd_takeTagged_le tag (List.range 8) rest
    simp only [List.length_cons]
    omega

def unpackChecked (bytes : List UInt8) : Except String (List UInt8) :=
  unpackCheckedFrom [] bytes

-----------------------------------------------------------------------------------------
-- What the bits of a tag say
-----------------------------------------------------------------------------------------

/-- The bit test of the source is the one of numbers. -/
theorem testBit8_eq_testBit (tag : UInt8) {i : Nat} (inByte : i < 8)
    : testBit8 tag i = tag.toNat.testBit i := by
  have amount : (UInt8.ofNat i).toNat % 8 = i := by
    rw [UInt8.toNat_ofNat_of_lt' (by omega : i < 2 ^ 8)]
    omega
  rw [testBit8, Bool.eq_iff_iff, beq_iff_eq, ← UInt8.toNat_inj, UInt8.toNat_and,
    UInt8.toNat_shiftRight, amount]
  simp [Nat.testBit, Nat.and_comm]

/-- A mask adds one bit. -/
theorem testBit8_or_bitMask8 (tag : UInt8) {i j : Nat} (inByte : i < 8) (inByte' : j < 8)
    : testBit8 (tag ||| bitMask8 j) i = (testBit8 tag i || decide (j = i)) := by
  have mask : ∀ j < 8, (bitMask8 j).toNat = 2 ^ j := by decide
  rw [testBit8_eq_testBit _ inByte, testBit8_eq_testBit _ inByte, UInt8.toNat_or,
    mask j inByte', Nat.testBit_or, Nat.testBit_two_pow]

/-- Two tags with the same bits are the same. -/
theorem eq_of_testBit8 {tag other : UInt8} (same : ∀ i < 8, testBit8 tag i = testBit8 other i)
    : tag = other := by
  rw [← UInt8.toNat_inj]
  refine Nat.eq_of_testBit_eq (fun i => ?_)
  rcases Nat.lt_or_ge i 8 with inByte | outside
  · rw [← testBit8_eq_testBit tag inByte, ← testBit8_eq_testBit other inByte, same i inByte]
  · have small (byte : UInt8) : byte.toNat < 2 ^ i :=
      Nat.lt_of_lt_of_le byte.toNat_lt (Nat.pow_le_pow_right (by omega) outside)
    rw [Nat.testBit_lt_two_pow (small tag), Nat.testBit_lt_two_pow (small other)]

/-- A word's tag has the bits of its bytes that are not zero, by induction on the loop. -/
theorem testBit8_wordTag (word : List UInt8) {i : Nat} (inByte : i < 8)
    : testBit8 (wordTag word) i = (word.getD i 0 != 0) := by
  have loop (places : List Nat) (acc : UInt8) (inBytes : ∀ j ∈ places, j < 8)
      : testBit8
          (places.foldl (fun tag j => if word.getD j 0 != 0 then tag ||| bitMask8 j else tag)
            acc) i
        = (testBit8 acc i || (decide (i ∈ places) && word.getD i 0 != 0)) := by
    induction places generalizing acc with
    | nil => simp
    | cons j more ih =>
        rw [List.foldl_cons, ih _ (fun k member => inBytes k (List.mem_cons_of_mem _ member))]
        by_cases here : j = i
        · subst here
          cases zero : word.getD j 0 != 0 <;>
            simp [testBit8_or_bitMask8 acc inByte inByte]
        · have away := testBit8_or_bitMask8 acc inByte (inBytes j List.mem_cons_self)
          have elsewhere : ¬ i = j := fun same => here same.symm
          cases zero : word.getD j 0 != 0 <;> simp [away, here, elsewhere]
  have none : ∀ i < 8, testBit8 0 i = false := by decide
  rw [wordTag, loop (List.range 8) 0 (by simp), none i inByte]
  simp [inByte]

/-- A tag is zero exactly for a word of zeros. -/
theorem wordTag_eq_zero_iff {word : List UInt8}
    : wordTag word = 0 ↔ ∀ i < 8, word.getD i 0 = 0 := by
  have none : ∀ i < 8, testBit8 0 i = false := by decide
  constructor
  · intro zero i inByte
    have bit := testBit8_wordTag word inByte
    rw [zero, none i inByte] at bit
    simpa using bit
  · intro zeros
    refine eq_of_testBit8 (fun i inByte => ?_)
    rw [testBit8_wordTag word inByte, zeros i inByte, none i inByte]
    rfl

/-- A tag is full exactly for a word without a zero byte. -/
theorem wordTag_eq_full_iff {word : List UInt8}
    : wordTag word = 0xFF ↔ ∀ i < 8, word.getD i 0 ≠ 0 := by
  have all : ∀ i < 8, testBit8 0xFF i = true := by decide
  constructor
  · intro full i inByte
    have bit := testBit8_wordTag word inByte
    rw [full, all i inByte] at bit
    simpa using bit
  · intro full
    refine eq_of_testBit8 (fun i inByte => ?_)
    rw [testBit8_wordTag word inByte, all i inByte]
    simpa using full i inByte

end Capnp
