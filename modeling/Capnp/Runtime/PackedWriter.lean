import Capnp.Library.BufferedOutput
import Capnp.Runtime.Framing
import Capnp.Runtime.PackRoundTrip

/-! Messages written to a file without a copy of all their bytes: a cursor runs over the header
and the segments, and packed bytes go out through a buffer.
-/

namespace Capnp

open ByteString

def writeMessageHeader (msg : Message) : List UInt8 :=
  let segCount := msg.segments.length
  if segCount == 0 then []
  else
    let headerWords := segCount + 1
    let out := appendUInt32LE [] (UInt32.ofNat (segCount - 1))
    let out :=
      (List.range segCount).foldl
        (fun out i => appendUInt32LE out (UInt32.ofNat ((getSegment msg i).length / 8))) out
    if headerWords % 2 != 0 then appendUInt32LE out 0 else out

/-- A place in the header or the segments, with the number of bytes left behind it. -/
structure ByteCursor where
  header : List UInt8
  segs : List (List UInt8)
  rem : Nat
  headerPos : Nat
  segIdx : Nat
  segPos : Nat

/-- A place in the segments with a word that was read ahead. -/
structure WordCursor where
  cursor : ByteCursor
  pending : Option (List UInt8)

/-- The loop that looks for a segment with a byte left: whether there is one, and where the
search ends.
-/
def seekSegment (segs : List (List UInt8)) (idx pos : Nat) : Bool × Nat × Nat :=
  if idx < segs.length then
    if pos < (segs.getD idx []).length then (true, idx, pos) else seekSegment segs (idx + 1) 0
  else (false, idx, pos)
termination_by segs.length - idx

def nextByte (c : ByteCursor) : UInt8 × ByteCursor :=
  if c.rem == 0 then (0, c)
  else if h : c.headerPos < c.header.length then
    (c.header[c.headerPos], { c with rem := c.rem - 1, headerPos := c.headerPos + 1 })
  else
    let (found, idx, pos) := seekSegment c.segs c.segIdx c.segPos
    if found then
      ((c.segs.getD idx []).getD pos 0,
        { c with rem := c.rem - 1, segIdx := idx, segPos := pos + 1 })
    else (0, { c with rem := c.rem - 1, segIdx := idx, segPos := pos })

/-- The loop that takes bytes one by one. -/
def takeBytes : Nat → ByteCursor → List UInt8 × ByteCursor
  | 0, cur => ([], cur)
  | count + 1, cur =>
      let (b, cur) := nextByte cur
      let (arr, cur) := takeBytes count cur
      (b :: arr, cur)

def takeWord (c : WordCursor) : List UInt8 × WordCursor :=
  match c.pending with
  | some w => (w, { c with pending := none })
  | none =>
      let (arr, cur) := takeBytes 8 c.cursor
      (arr, { c with cursor := cur })

def wordIsZero (word : List UInt8) : Bool :=
  (List.range 8).all (fun i => word.getD i 0 == 0)

def wordIsFull (word : List UInt8) : Bool :=
  (List.range 8).all (fun i => word.getD i 0 != 0)

/-- The loops that take a run: the word that ends it is put back. -/
def takeRun (test : List UInt8 → Bool) (wordCount : Nat)
    : Nat → Nat → WordCursor → List (List UInt8) × WordCursor
  | 0, _, cur => ([], cur)
  | left + 1, k, cur =>
      if k < wordCount then
        let (next, curNext) := takeWord cur
        if test next then
          let (words, cur) := takeRun test wordCount left (k + 1) curNext
          (next :: words, cur)
        else ([], { curNext with pending := some next })
      else ([], cur)

abbrev PackedOutput := BufferedOutput UInt8 4096

/-- The loop over the words, with the handle and its buffer as `out`. -/
def writePackedFrom (wordCount i : Nat) (cur : WordCursor) (out : PackedOutput)
    : PackedOutput :=
  if i < wordCount then
    let (word, cur) := takeWord cur
    let tag := wordTag word
    let out := out.push tag
    if tag == 0 then
      let (words, cur) := takeRun wordIsZero wordCount 255 (i + 1) cur
      let out := out.push (UInt8.ofNat words.length)
      writePackedFrom wordCount (i + 1 + words.length) cur out
    else if tag == 0xFF then
      let out := out.pushAll ((List.range 8).map (fun j => word.getD j 0))
      let (words, cur) := takeRun wordIsFull wordCount 255 (i + 1) cur
      let extra := words.flatMap (fun next => (List.range 8).map (fun j => next.getD j 0))
      let out := out.push (UInt8.ofNat words.length)
      let out := out.pushAll extra
      writePackedFrom wordCount (i + 1 + words.length) cur out
    else
      let out := out.pushAll (((List.range 8).map (fun j => word.getD j 0)).filter (· != 0))
      writePackedFrom wordCount (i + 1) cur out
  else out
termination_by wordCount - i

/-- The writes to the handle, in their order. -/
def writeMessagePackedTo (msg : Message) : List (List UInt8) :=
  let header := writeMessageHeader msg
  let segs := msg.segments
  let totalBytes := header.length + segs.foldl (fun acc s => acc + s.length) 0
  if totalBytes == 0 then []
  else
    let wordCount := (totalBytes + 7) / 8
    let cur : WordCursor :=
      { cursor :=
          { header := header, segs := segs, rem := totalBytes, headerPos := 0, segIdx := 0,
            segPos := 0 }
        pending := none }
    (writePackedFrom wordCount 0 cur (BufferedOutput.empty (by decide))).close

def readMessagePacked (bytes : List UInt8) : Message :=
  readMessage (unpack bytes)

def writeMessagePacked (msg : Message) : List UInt8 :=
  pack (writeMessage msg)

def readMessagePackedChecked (opts : ReaderOptions) (bytes : List UInt8)
    : Except String Message :=
  match unpackChecked bytes with
  | .error e => .error e
  | .ok raw => readMessageChecked opts raw

-----------------------------------------------------------------------------------------
-- The cursor
-----------------------------------------------------------------------------------------

/-- The bytes that the segments hold from a place on. -/
def segmentRest (segs : List (List UInt8)) (idx pos : Nat) : List UInt8 :=
  (segs.drop idx).flatten.drop pos

/-- Within a segment, one more byte is left than behind the next one. -/
theorem segmentRest_inside {segs : List (List UInt8)} {idx pos : Nat}
    (inside : pos < (segs.getD idx []).length)
    : segmentRest segs idx pos = (segs.getD idx []).getD pos 0 :: segmentRest segs idx (pos + 1) :=
  by
  have listed : idx < segs.length := by
    by_contra outside
    rw [List.getD_eq_default _ _ (Nat.not_lt.mp outside)] at inside
    cases inside
  rw [List.getD_eq_getElem _ _ listed] at inside ⊢
  rw [segmentRest, segmentRest, List.drop_eq_getElem_cons listed, List.flatten_cons,
    List.drop_append_of_le_length (Nat.le_of_lt inside), List.drop_eq_getElem_cons inside,
    List.drop_append_of_le_length inside, List.getD_eq_getElem _ _ inside]
  rfl

/-- At the end of a segment the next one goes on. -/
theorem segmentRest_end {segs : List (List UInt8)} {idx : Nat} (listed : idx < segs.length)
    : segmentRest segs idx (segs.getD idx []).length = segmentRest segs (idx + 1) 0 := by
  rw [List.getD_eq_getElem _ _ listed, segmentRest, segmentRest,
    List.drop_eq_getElem_cons listed, List.flatten_cons, List.drop_left, List.drop_zero]

/-- The search ends at the next byte, or past the last one, by induction on the segments left. -/
theorem seekSegment_spec {segs : List (List UInt8)} {idx pos : Nat} {found : Bool}
    {place : Nat × Nat} (within : pos ≤ (segs.getD idx []).length)
    (search : seekSegment segs idx pos = (found, place))
    : segmentRest segs place.1 place.2 = segmentRest segs idx pos
      ∧ (found → place.2 < (segs.getD place.1 []).length)
      ∧ (found = false → segmentRest segs idx pos = []) := by
  induction left : segs.length - idx generalizing idx pos with
  | zero =>
      have outside : ¬ idx < segs.length := by omega
      rw [seekSegment, if_neg outside] at search
      obtain ⟨rfl, rfl⟩ := Prod.mk.inj search
      refine ⟨rfl, by simp, fun _ => ?_⟩
      rw [segmentRest, List.drop_eq_nil_of_le (Nat.not_lt.mp outside)]
      simp
  | succ left ih =>
      have listed : idx < segs.length := by omega
      rw [seekSegment, if_pos listed] at search
      by_cases here : pos < (segs.getD idx []).length
      · rw [if_pos here] at search
        obtain ⟨rfl, rfl⟩ := Prod.mk.inj search
        exact ⟨rfl, fun _ => here, by simp⟩
      · have ended : pos = (segs.getD idx []).length := by omega
        rw [if_neg here] at search
        rw [ended, segmentRest_end listed]
        exact ih (Nat.zero_le _) search (by omega)

/-- The cursor stands before the byte `p`. -/
structure ByteCursor.At (c : ByteCursor) (bytes : List UInt8) (p : Nat) : Prop where
  rem : c.rem = bytes.length - p
  rest : c.header.drop c.headerPos ++ segmentRest c.segs c.segIdx c.segPos = bytes.drop p
  inside : c.segPos ≤ (c.segs.getD c.segIdx []).length

/-- The cursor gives the byte where it stands and moves on. -/
theorem ByteCursor.At.nextByte {c : ByteCursor} {bytes : List UInt8} {p : Nat}
    (stands : c.At bytes p)
    : (nextByte c).1 = bytes.getD p 0 ∧ (nextByte c).2.At bytes (p + 1) := by
  unfold Capnp.nextByte
  by_cases none : c.rem = 0
  · have past : bytes.length ≤ p := by
      have := stands.rem
      omega
    rw [if_pos (by simpa using none)]
    refine ⟨(List.getD_eq_default _ _ past).symm, ?_, ?_, stands.inside⟩
    · show c.rem = _
      omega
    · rw [stands.rest, List.drop_eq_nil_of_le past, List.drop_eq_nil_of_le (by omega)]
  have one : c.rem - 1 = bytes.length - (p + 1) := by
    rw [stands.rem]
    omega
  have more : p < bytes.length := by
    have := stands.rem
    omega
  have next := List.drop_eq_getElem_cons more
  have rest := stands.rest
  rw [if_neg (by simpa using none), List.getD_eq_getElem _ _ more]
  by_cases header : c.headerPos < c.header.length
  · rw [dif_pos header]
    rw [List.drop_eq_getElem_cons header, next, List.cons_append] at rest
    obtain ⟨byte, rest⟩ := List.cons.inj rest
    exact ⟨byte, one, rest, stands.inside⟩
  · rw [dif_neg header]
    have past := List.drop_eq_nil_of_le (Nat.not_lt.mp header)
    rw [past, List.nil_append] at rest
    rcases search : seekSegment c.segs c.segIdx c.segPos with ⟨found, idx, pos⟩
    obtain ⟨same, inside, ended⟩ := seekSegment_spec stands.inside search
    cases found with
    | false =>
        rw [ended rfl, next] at rest
        cases rest
    | true =>
        rw [← same, segmentRest_inside (inside rfl), next] at rest
        obtain ⟨byte, rest⟩ := List.cons.inj rest
        refine ⟨byte, one, ?_, inside rfl⟩
        show c.header.drop c.headerPos ++ _ = _
        rw [past]
        exact rest

/-- It gives as many bytes as asked for, by induction on their number. -/
theorem ByteCursor.At.takeBytes {c : ByteCursor} {bytes : List UInt8} {p : Nat}
    (stands : c.At bytes p) (count : Nat)
    : (takeBytes count c).1 = (List.range count).map (fun j => bytes.getD (p + j) 0)
      ∧ (takeBytes count c).2.At bytes (p + count) := by
  induction count generalizing c p with
  | zero => exact ⟨rfl, stands⟩
  | succ count ih =>
      obtain ⟨byte, next⟩ := stands.nextByte
      obtain ⟨later, ends⟩ := ih next
      simp only [Capnp.takeBytes, byte, later, List.range_succ_eq_map, List.map_cons, List.map_map,
        Nat.add_zero]
      refine ⟨?_, ?_⟩
      · simp [Function.comp_def, Nat.add_assoc, Nat.add_comm 1]
      · rwa [Nat.add_assoc, Nat.add_comm 1] at ends

/-- The cursor stands before the word `i`, which it may hold already. -/
def WordCursor.At (c : WordCursor) (bytes : List UInt8) (i : Nat) : Prop :=
  match c.pending with
  | none => c.cursor.At bytes (i * 8)
  | some word => word = packedWord bytes i ∧ c.cursor.At bytes ((i + 1) * 8)

/-- The cursor gives the word where it stands, read ahead or not, and moves on. -/
theorem WordCursor.At.takeWord {c : WordCursor} {bytes : List UInt8} {i : Nat}
    (stands : c.At bytes i)
    : (takeWord c).1 = packedWord bytes i
      ∧ (takeWord c).2.pending = none
      ∧ (takeWord c).2.cursor.At bytes ((i + 1) * 8) := by
  obtain ⟨cursor, pending⟩ := c
  cases pending with
  | none =>
      obtain ⟨word, next⟩ := ByteCursor.At.takeBytes stands 8
      rcases taken : takeBytes 8 cursor with ⟨arr, cur⟩
      rw [taken] at word next
      simp only [Capnp.takeWord, taken]
      exact ⟨word, trivial, by rwa [Nat.succ_mul]⟩
  | some word =>
      obtain ⟨word, next⟩ := stands
      exact ⟨word, rfl, next⟩

/-- Without a word read ahead, it stands where its bytes do. -/
theorem WordCursor.at_of_none {c : WordCursor} {bytes : List UInt8} {i : Nat}
    (none : c.pending = none) (stands : c.cursor.At bytes (i * 8))
    : c.At bytes i := by
  unfold WordCursor.At
  rw [none]
  exact stands

/-- The words of a run, and the cursor behind it. -/
theorem WordCursor.At.takeRun {c : WordCursor} {bytes : List UInt8} {k : Nat}
    (stands : c.At bytes k) (test : List UInt8 → Bool) (wordCount left : Nat)
    : (takeRun test wordCount left k c).1
        = (List.range (runLength (fun i => test (packedWord bytes i)) wordCount left k)).map
            (fun r => packedWord bytes (k + r))
      ∧ (takeRun test wordCount left k c).2.At bytes
          (k + runLength (fun i => test (packedWord bytes i)) wordCount left k) := by
  induction left generalizing c k with
  | zero => exact ⟨rfl, stands⟩
  | succ left ih =>
      simp only [Capnp.takeRun, runLength]
      by_cases more : k < wordCount
      · obtain ⟨word, none, next⟩ := stands.takeWord
        simp only [more, decide_true, if_true, word, Bool.true_and]
        by_cases pass : test (packedWord bytes k)
        · obtain ⟨words, ends⟩ := ih (WordCursor.at_of_none none next)
          simp only [pass, if_true, words, List.range_succ_eq_map, List.map_cons, List.map_map,
            Nat.add_zero]
          refine ⟨?_, ?_⟩
          · simp [Function.comp_def, Nat.add_assoc, Nat.add_comm 1]
          · rwa [Nat.add_assoc, Nat.add_comm 1] at ends
        · simp only [pass, Bool.false_eq_true, if_false]
          exact ⟨rfl, rfl, next⟩
      · simp only [more, decide_false, if_false, Bool.false_and, Bool.false_eq_true]
        exact ⟨rfl, stands⟩

-----------------------------------------------------------------------------------------
-- The bytes that arrive
-----------------------------------------------------------------------------------------

/-- A test of all bytes of a word. -/
theorem all_packedWord (test : UInt8 → Bool) (bytes : List UInt8) (i : Nat)
    : (List.range 8).all (fun j => test ((packedWord bytes i).getD j 0))
      = (List.range 8).all (fun j => test (readByteArray bytes (i * 8 + j))) := by
  rw [Bool.eq_iff_iff, List.all_eq_true, List.all_eq_true]
  refine forall₂_congr (fun j inWord => ?_)
  rw [getD_packedWord bytes i (List.mem_range.mp inWord)]

/-- Both packers test a word for zero alike. -/
theorem wordIsZero_packedWord (bytes : List UInt8)
    : (fun i => wordIsZero (packedWord bytes i)) = wordIsZeroBytes bytes :=
  funext (all_packedWord (· == 0) bytes)

/-- Both packers test a word for zero bytes alike. -/
theorem wordIsFull_packedWord (bytes : List UInt8)
    : (fun i => wordIsFull (packedWord bytes i)) = wordIsFullBytes bytes :=
  funext (all_packedWord (· != 0) bytes)

/-- A word by its bytes. -/
theorem map_getD_packedWord (bytes : List UInt8) (i : Nat)
    : (List.range 8).map (fun j => (packedWord bytes i).getD j 0) = packedWord bytes i := by
  rw [packedWord]
  refine List.map_congr_left (fun j inWord => ?_)
  exact getD_packedWord bytes i (List.mem_range.mp inWord)

/-- The loop puts out what packing all the bytes at once does, by induction on the words
left.
-/
theorem writePackedFrom_eq {bytes : List UInt8} {wordCount i : Nat} {cur : WordCursor}
    (stands : cur.At bytes i) (inside : i ≤ wordCount) (out : PackedOutput)
    : writePackedFrom wordCount i cur out = out.pushAll (packFrom bytes wordCount i) := by
  induction size : wordCount - i using Nat.strong_induction_on generalizing i cur out with
  | _ left ih =>
      rw [writePackedFrom, packFrom]
      by_cases more : i < wordCount
      · rw [if_pos more, if_pos more]
        obtain ⟨word, none, next⟩ := stands.takeWord
        have behind := WordCursor.at_of_none none next
        simp only [word, map_getD_packedWord]
        by_cases zero : wordTag (packedWord bytes i) = 0
        · obtain ⟨words, ends⟩ := behind.takeRun wordIsZero wordCount 255
          rw [wordIsZero_packedWord] at words ends
          have fits : i + 1 + runLength (wordIsZeroBytes bytes) wordCount 255 (i + 1) ≤ wordCount :=
            runLength_fits more
          simp only [zero, beq_self_eq_true, if_true, words, List.length_map, List.length_range]
          rw [ih _ (by omega) ends fits _ rfl]
          simp
        · by_cases full : wordTag (packedWord bytes i) = 0xFF
          · obtain ⟨words, ends⟩ := behind.takeRun wordIsFull wordCount 255
            rw [wordIsFull_packedWord] at words ends
            have fits
                : i + 1 + runLength (wordIsFullBytes bytes) wordCount 255 (i + 1) ≤ wordCount :=
              runLength_fits more
            simp only [full, full_ne_zero, Bool.false_eq_true, if_false, beq_self_eq_true, if_true,
              words, List.length_map, List.length_range, List.flatMap_map, map_getD_packedWord]
            rw [ih _ (by omega) ends fits _ rfl]
            simp
          · have notZero : (wordTag (packedWord bytes i) == 0) = false := by simpa using zero
            have notFull : (wordTag (packedWord bytes i) == 0xFF) = false := by simpa using full
            simp only [notZero, notFull, Bool.false_eq_true, if_false]
            rw [ih _ (by omega) behind more _ rfl]
            simp
      · rw [if_neg more, if_neg more, BufferedOutput.pushAll_nil]

/-- A message is its header and its segments. -/
theorem writeMessageHeader_eq {msg : Message} (some : msg.segments ≠ [])
    : writeMessageHeader msg ++ msg.segments.flatten = writeMessage msg := by
  have none : msg.segments.length ≠ 0 := fun none => some (List.eq_nil_of_length_eq_zero none)
  simp only [writeMessageHeader, writeMessage, beq_iff_eq, if_neg none,
    List.foldl_append_eq_append, ← List.flatMap_def, flatMap_getSegment_range]

/-- The header and the segments are the bytes of the message, also where there are none. -/
theorem writeMessageHeader_append (msg : Message)
    : writeMessageHeader msg ++ msg.segments.flatten = writeMessage msg := by
  by_cases none : msg.segments = []
  · simp [writeMessageHeader, writeMessage, none]
  · exact writeMessageHeader_eq none

/-- The loop adds up the sizes. -/
theorem foldl_length (segs : List (List UInt8)) (acc : Nat)
    : segs.foldl (fun acc s => acc + s.length) acc = acc + segs.flatten.length := by
  induction segs generalizing acc with
  | nil => rfl
  | cons seg rest ih =>
      rw [List.foldl_cons, ih, List.flatten_cons, List.length_append, Nat.add_assoc]

/-- What the packed writer puts out, in the pieces of its buffer. -/
theorem writeMessagePackedTo_eq (msg : Message)
    : writeMessagePackedTo msg
      = ((BufferedOutput.empty (by decide) : PackedOutput).pushAll
          (writeMessagePacked msg)).close := by
  have total
      : (writeMessageHeader msg).length + msg.segments.foldl (fun acc s => acc + s.length) 0
        = (writeMessage msg).length := by
    rw [foldl_length, Nat.zero_add, ← List.length_append, writeMessageHeader_append]
  unfold writeMessagePackedTo
  simp only [total]
  by_cases none : (writeMessage msg).length = 0
  · have nothing := List.eq_nil_of_length_eq_zero none
    rw [if_pos (by simpa using none), writeMessagePacked, nothing, pack, packFrom]
    rfl
  · rw [if_neg (by simpa using none)]
    congr 1
    refine writePackedFrom_eq ?_ (Nat.zero_le _) _
    refine ⟨by simp, ?_, by simp⟩
    simp only [List.drop_zero, segmentRest]
    exact writeMessageHeader_append msg

/-- What reaches the handle is the packed message, in writes of 4096 bytes and a last one that
may be shorter.
-/
theorem flatten_writeMessagePackedTo (msg : Message)
    : (writeMessagePackedTo msg).flatten = writeMessagePacked msg
      ∧ (∀ chunk ∈ writeMessagePackedTo msg, 0 < chunk.length ∧ chunk.length ≤ 4096)
      ∧ ∀ chunk ∈ (writeMessagePackedTo msg).dropLast, chunk.length = 4096 := by
  rw [writeMessagePackedTo_eq]
  exact ⟨BufferedOutput.close_pushAll (by decide) _, BufferedOutput.close_cases _⟩

/-- A packed message is accepted exactly where it stays in the limits. -/
theorem Message.Framable.readMessagePackedChecked {msg : Message} (framable : msg.Framable)
    (opts : ReaderOptions)
    : readMessagePackedChecked opts (writeMessagePacked msg) = .ok msg
      ↔ msg.segments.length ≤ opts.maxSegments ∧ messageWords msg ≤ opts.maxMessageWords := by
  rw [Capnp.readMessagePackedChecked, writeMessagePacked, unpackChecked_pack]
  exact framable.readMessageChecked opts _

/-- A packed message is read back, by the checked reader exactly where it stays in the
limits.
-/
theorem readMessagePacked_writeMessagePacked {msg : Message} (framable : msg.Framable)
    (opts : ReaderOptions)
    : readMessagePacked (writeMessagePacked msg) = msg
      ∧ (readMessagePackedChecked opts (writeMessagePacked msg) = .ok msg
          ↔ msg.segments.length ≤ opts.maxSegments
            ∧ messageWords msg ≤ opts.maxMessageWords) := by
  refine ⟨?_, framable.readMessagePackedChecked opts⟩
  rw [readMessagePacked, writeMessagePacked, unpackPlain_pack]
  exact readMessage_of_frames (framable.frames _)

/-- Witness: two segments at their limits. -/
theorem readMessagePacked_writeMessagePacked_twoSegments
    : readMessagePacked (writeMessagePacked twoSegments) = twoSegments
      ∧ readMessagePackedChecked { maxSegments := 2, maxMessageWords := 1 }
          (writeMessagePacked twoSegments) = .ok twoSegments := by
  obtain ⟨plain, checked⟩ := readMessagePacked_writeMessagePacked twoSegments_framable
    { maxSegments := 2, maxMessageWords := 1 }
  exact ⟨plain, checked.mpr (by decide)⟩

end Capnp
