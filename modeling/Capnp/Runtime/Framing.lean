import Mathlib.Data.List.GetD
import Capnp.Library.ByteString
import Capnp.Runtime.MessageBytes

/-! The frame of a message in a byte string: the number of segments, the table of their sizes,
padding up to a whole word, and the segments one behind the other.
-/

namespace Capnp

open ByteString

/-- The limits of a reader, with their defaults. -/
structure ReaderOptions where
  maxSegments : Nat := 512
  maxMessageWords : Nat := 1000000
deriving DecidableEq

def emptyMessage : Message where
  segments := []

/-- The bytes that the view of a part covers. -/
def viewedBytes (bytes : List UInt8) (off len : Nat) : List UInt8 :=
  (bytes.drop off).take len

def headerBytes (segCount : Nat) : Nat :=
  let headerWords := segCount + 1
  let headerWordsPadded := if headerWords % 2 == 0 then headerWords else headerWords + 1
  headerWordsPadded * 4

/-- The loop over the table from the segment `i` on; there is no result once a segment does
not fit.
-/
def readSegments (bytes : List UInt8)
    : Nat → Nat → Nat → List (List UInt8) → Option (List (List UInt8))
  | 0, _, _, segments => some segments
  | left + 1, i, offset, segments =>
      let sizeWords := readUInt32LE bytes (4 + i * 4)
      let sizeBytes := sizeWords.toNat * 8
      if offset + sizeBytes ≤ bytes.length then
        readSegments bytes left (i + 1) (offset + sizeBytes)
          (segments ++ [viewedBytes bytes offset sizeBytes])
      else none

def readMessage (bytes : List UInt8) : Message :=
  if bytes.length < 4 then emptyMessage
  else
    let segCount := (readUInt32LE bytes 0).toNat + 1
    let headerBytes := headerBytes segCount
    if bytes.length < headerBytes then emptyMessage
    else
      match readSegments bytes segCount 0 headerBytes [] with
      | some segments => { segments := segments }
      | none => emptyMessage

def readSegmentsChecked (opts : ReaderOptions) (bytes : List UInt8)
    : Nat → Nat → Nat → Nat → List (List UInt8) → Except String (List (List UInt8))
  | 0, _, _, _, segments => .ok segments
  | left + 1, i, offset, totalWords, segments =>
      let sizeWords := readUInt32LE bytes (4 + i * 4)
      let sizeBytes := sizeWords.toNat * 8
      let totalWords := totalWords + sizeWords.toNat
      if totalWords > opts.maxMessageWords then .error "message too large"
      else if offset + sizeBytes ≤ bytes.length then
        readSegmentsChecked opts bytes left (i + 1) (offset + sizeBytes) totalWords
          (segments ++ [viewedBytes bytes offset sizeBytes])
      else .error "truncated segment data"

def readMessageChecked (opts : ReaderOptions) (bytes : List UInt8) : Except String Message :=
  if bytes.length < 4 then .error "message header too small"
  else
    let segCount := (readUInt32LE bytes 0).toNat + 1
    if segCount > opts.maxSegments then .error "too many segments"
    else
      let headerBytes := headerBytes segCount
      if bytes.length < headerBytes then .error "truncated segment header"
      else
        match readSegmentsChecked opts bytes segCount 0 headerBytes 0 [] with
        | .ok segments => .ok { segments := segments }
        | .error reason => .error reason

-----------------------------------------------------------------------------------------
-- The layout of a frame
-----------------------------------------------------------------------------------------

/-- A segment whose size the table can say. -/
def Framable (segment : List UInt8) : Prop :=
  segment.length % 8 = 0 ∧ segment.length / 8 < 2 ^ 32

def sizeWire (segment : List UInt8) : List UInt8 :=
  uint32Le (UInt32.ofNat (segment.length / 8))

/-- The number of segments less one, and the sizes in words. -/
def segmentTable (msg : Message) : List UInt8 :=
  uint32Le (UInt32.ofNat (msg.segments.length - 1)) ++ msg.segments.flatMap sizeWire

/-- The bytes start with the frame of the message. What stands in the padding is not said. -/
structure Frames (msg : Message) (bytes : List UInt8) : Prop where
  some : msg.segments ≠ []
  count : msg.segments.length ≤ 2 ^ 32
  sizes : ∀ segment ∈ msg.segments, Framable segment
  table : StandsAt bytes 0 (segmentTable msg)
  contents : StandsAt bytes (headerBytes msg.segments.length) msg.segments.flatten

/-- The header holds the table, rounded up to a whole word. -/
theorem le_headerBytes (segCount : Nat)
    : 4 + segCount * 4 ≤ headerBytes segCount ∧ headerBytes segCount ≤ 8 + segCount * 4
      ∧ headerBytes segCount % 8 = 0 := by
  simp only [headerBytes, beq_iff_eq]
  split <;> omega

/-- Every size takes four bytes. -/
theorem length_flatMap_sizeWire (segments : List (List UInt8))
    : (segments.flatMap sizeWire).length = segments.length * 4 := by
  simp [List.length_flatMap, sizeWire]

/-- The table takes four bytes, and four more for each segment. -/
theorem length_segmentTable (msg : Message)
    : (segmentTable msg).length = 4 + msg.segments.length * 4 := by
  rw [segmentTable, List.length_append, length_flatMap_sizeWire, length_uint32Le]

/-- The size of a segment is what is read in the table. -/
theorem standsAt_sizeWire_iff {bytes segment : List UInt8} {offset : Nat}
    (framable : Framable segment)
    : StandsAt bytes offset (sizeWire segment)
      ↔ offset + 4 ≤ bytes.length ∧ (readUInt32LE bytes offset).toNat * 8 = segment.length := by
  have number : (UInt32.ofNat (segment.length / 8)).toNat = segment.length / 8 :=
    UInt32.toNat_ofNat_of_lt' framable.2
  have multiple := framable.1
  rw [sizeWire, standsAt_uint32Le, ← UInt32.toNat_inj, number]
  refine and_congr_right (fun _ => ?_)
  show (readUInt32LE bytes offset).toNat = _ ↔ _
  omega

/-- Bytes that are all there are seen in full. -/
theorem length_viewedBytes {bytes : List UInt8} {off len : Nat} (fits : off + len ≤ bytes.length)
    : (viewedBytes bytes off len).length = len :=
  (standsAt_slice fits).2

/-- What is read in the table is a size that a table can say. -/
theorem framable_viewedBytes {bytes : List UInt8} {off at' : Nat}
    (fits : off + (readUInt32LE bytes at').toNat * 8 ≤ bytes.length)
    : Framable (viewedBytes bytes off ((readUInt32LE bytes at').toNat * 8)) := by
  have small := (readUInt32LE bytes at').toNat_lt
  rw [Framable, length_viewedBytes fits]
  omega

/-- The loop succeeds exactly where segments of the sizes in the table stand one behind the
other, by induction on the table.
-/
theorem readSegments_eq_some_iff {bytes : List UInt8} {left i offset : Nat}
    {found segments : List (List UInt8)} (table : 4 + (i + left) * 4 ≤ bytes.length)
    (inside : offset ≤ bytes.length)
    : readSegments bytes left i offset found = some segments
      ↔ ∃ more,
          segments = found ++ more
          ∧ more.length = left
          ∧ (∀ segment ∈ more, Framable segment)
          ∧ StandsAt bytes (4 + i * 4) (more.flatMap sizeWire)
          ∧ StandsAt bytes offset more.flatten := by
  induction left generalizing i offset found with
  | zero =>
      simp only [readSegments, Option.some.injEq]
      constructor
      · intro done
        subst done
        exact ⟨[], by simp, rfl, by simp, standsAt_nil.mpr (by omega), standsAt_nil.mpr inside⟩
      · intro read
        obtain ⟨more, rfl, none, -⟩ := read
        simp [List.eq_nil_of_length_eq_zero none]
  | succ left ih =>
      rw [readSegments]
      constructor
      · intro done
        split at done
        · next fits =>
            obtain ⟨more, rfl, length, framable, sizes, contents⟩ :=
              (ih (by omega) fits).mp done
            have first := framable_viewedBytes fits
            have size := length_viewedBytes fits
            refine ⟨viewedBytes bytes offset ((readUInt32LE bytes (4 + i * 4)).toNat * 8) :: more,
              by simp, by simp [length], ?_, ?_, ?_⟩
            · simpa using ⟨first, framable⟩
            · rw [List.flatMap_cons, standsAt_append]
              refine ⟨(standsAt_sizeWire_iff first).mpr ⟨by omega, size.symm⟩, ?_⟩
              rwa [Nat.succ_mul, ← Nat.add_assoc] at sizes
            · rw [List.flatten_cons, standsAt_append]
              exact ⟨(standsAt_slice fits).1, by rw [size]; exact contents⟩
        · cases done
      · intro read
        obtain ⟨more, rfl, length, framable, sizes, contents⟩ := read
        cases more with
        | nil => simp at length
        | cons segment more =>
            rw [List.flatMap_cons, standsAt_append] at sizes
            rw [List.flatten_cons, standsAt_append] at contents
            have first := framable segment List.mem_cons_self
            obtain ⟨-, size⟩ := (standsAt_sizeWire_iff first).mp sizes.1
            have fits := contents.1.fits
            have here : viewedBytes bytes offset segment.length = segment :=
              contents.1.eq_slice
            have sizes := sizes.2
            rw [sizeWire, length_uint32Le, Nat.add_assoc, ← Nat.succ_mul] at sizes
            rw [size, if_pos fits, here]
            refine (ih (by omega) fits).mpr ⟨more, by simp, by simpa using length, ?_, sizes,
              contents.2⟩
            exact fun other member => framable other (List.mem_cons_of_mem _ member)

-----------------------------------------------------------------------------------------
-- What is read
-----------------------------------------------------------------------------------------

/-- The head of a frame says how many segments there are, and the loop reads them. -/
theorem frames_iff {msg : Message} {bytes : List UInt8} (some : msg.segments ≠ [])
    : Frames msg bytes
      ↔ 4 ≤ bytes.length
        ∧ (readUInt32LE bytes 0).toNat + 1 = msg.segments.length
        ∧ headerBytes msg.segments.length ≤ bytes.length
        ∧ readSegments bytes msg.segments.length 0 (headerBytes msg.segments.length) []
          = .some msg.segments := by
  have positive := List.length_pos_iff.mpr some
  have header := le_headerBytes msg.segments.length
  constructor
  · intro frames
    obtain ⟨-, count, sizes, table, contents⟩ := frames
    have inside := contents.fits
    obtain ⟨first, rest⟩ := standsAt_append.mp table
    obtain ⟨-, number⟩ := standsAt_uint32Le.mp first
    have less : msg.segments.length - 1 < 2 ^ 32 := by omega
    have value : (readUInt32LE bytes 0).toNat = msg.segments.length - 1 := by
      rw [← UInt32.toNat_ofNat_of_lt' (show _ < UInt32.size from less), ← number]
      rfl
    refine ⟨first.fits, by omega, by omega, ?_⟩
    exact (readSegments_eq_some_iff (by omega) (by omega)).mpr
      ⟨msg.segments, rfl, rfl, sizes, rest, contents⟩
  · intro read
    obtain ⟨enough, number, inside, segments⟩ := read
    obtain ⟨more, same, length, sizes, table, contents⟩ :=
      (readSegments_eq_some_iff (by omega) inside).mp segments
    obtain rfl : more = msg.segments := same.symm
    have small := (readUInt32LE bytes 0).toNat_lt
    refine ⟨some, by omega, sizes, standsAt_append.mpr ⟨?_, table⟩, contents⟩
    refine standsAt_uint32Le.mpr ⟨enough, ?_⟩
    have less : msg.segments.length - 1 < 2 ^ 32 := by omega
    rw [← UInt32.toNat_inj, UInt32.toNat_ofNat_of_lt' (show _ < UInt32.size from less)]
    show (readUInt32LE bytes 0).toNat = _
    omega

/-- The reader without limits reads a message that is framed. -/
theorem readMessage_of_frames {bytes : List UInt8} {msg : Message} (frames : Frames msg bytes)
    : readMessage bytes = msg := by
  obtain ⟨enough, number, inside, segments⟩ := (frames_iff frames.some).mp frames
  simp only [readMessage, number, if_neg (Nat.not_lt.mpr enough),
    if_neg (Nat.not_lt.mpr inside), segments]

/-- What the reader without limits gives is framed, unless it is empty. -/
theorem frames_readMessage {bytes : List UInt8} (some : (readMessage bytes).segments ≠ [])
    : Frames (readMessage bytes) bytes := by
  rw [frames_iff some]
  unfold readMessage at some ⊢
  simp only at some ⊢
  split_ifs at some ⊢ with short long
  · exact absurd rfl some
  · exact absurd rfl some
  · split at some
    · next segments read =>
        obtain ⟨more, same, length, -⟩ :=
          (readSegments_eq_some_iff
            (by have := le_headerBytes ((readUInt32LE bytes 0).toNat + 1); omega)
            (Nat.not_lt.mp long)).mp read
        obtain rfl : segments = more := same
        simp only [read, length]
        exact ⟨Nat.not_lt.mp short, trivial, Nat.not_lt.mp long, trivial⟩
    · exact absurd rfl some

/-- The reader without limits gives the message that is framed, and the empty one where none
is.
-/
theorem readMessage_eq_iff {bytes : List UInt8} {msg : Message}
    : readMessage bytes = msg
      ↔ Frames msg bytes ∨ msg = emptyMessage ∧ ∀ other, ¬ Frames other bytes := by
  constructor
  · intro read
    subst read
    by_cases none : (readMessage bytes).segments = []
    · have empty : readMessage bytes = emptyMessage := by
        cases found : readMessage bytes
        rw [found] at none
        exact congrArg Message.mk none
      refine .inr ⟨empty, fun other frames => frames.some ?_⟩
      rw [← readMessage_of_frames frames, none]
    · exact .inl (frames_readMessage none)
  · intro either
    rcases either with frames | ⟨rfl, none⟩
    · exact readMessage_of_frames frames
    · by_contra other
      refine none _ (frames_readMessage (fun empty => other ?_))
      cases found : readMessage bytes
      rw [found] at empty
      exact congrArg Message.mk empty

/-- The size that the table gives for a segment. -/
def segmentWords (bytes : List UInt8) (i : Nat) : Nat :=
  (readUInt32LE bytes (4 + i * 4)).toNat

/-- The sizes of `count` segments from the segment `i` on. -/
def tableWords (bytes : List UInt8) (i : Nat) : Nat → Nat
  | 0 => 0
  | count + 1 => segmentWords bytes i + tableWords bytes (i + 1) count

/-- Why the checked loop stops before the end of the table. -/
inductive StopsAt (opts : ReaderOptions) (bytes : List UInt8) (i offset total : Nat)
    : Nat → String → Prop
  | tooLarge {k : Nat} (fits : offset + tableWords bytes i k * 8 ≤ bytes.length)
      (within : total + tableWords bytes i k ≤ opts.maxMessageWords)
      (large : opts.maxMessageWords < total + tableWords bytes i (k + 1))
      : StopsAt opts bytes i offset total k "message too large"
  | truncated {k : Nat} (fits : offset + tableWords bytes i k * 8 ≤ bytes.length)
      (within : total + tableWords bytes i (k + 1) ≤ opts.maxMessageWords)
      (cut : bytes.length < offset + tableWords bytes i (k + 1) * 8)
      : StopsAt opts bytes i offset total k "truncated segment data"

/-- Stopping later is stopping behind the first segment. -/
theorem stopsAt_succ_iff {opts : ReaderOptions} {bytes : List UInt8} {i offset total k : Nat}
    {reason : String}
    : StopsAt opts bytes i offset total (k + 1) reason
      ↔ StopsAt opts bytes (i + 1) (offset + segmentWords bytes i * 8)
          (total + segmentWords bytes i) k reason := by
  constructor
  · intro stops
    cases stops with
    | tooLarge fits within large =>
        simp only [tableWords] at fits within large
        exact .tooLarge (by omega) (by omega) (by simp only [tableWords]; omega)
    | truncated fits within cut =>
        simp only [tableWords] at fits within cut
        exact .truncated (by omega) (by simp only [tableWords]; omega)
          (by simp only [tableWords]; omega)
  · intro stops
    cases stops with
    | tooLarge fits within large =>
        simp only [tableWords] at large
        exact .tooLarge (by simp only [tableWords]; omega) (by simp only [tableWords]; omega)
          (by simp only [tableWords]; omega)
    | truncated fits within cut =>
        simp only [tableWords] at within cut
        exact .truncated (by simp only [tableWords]; omega) (by simp only [tableWords]; omega)
          (by simp only [tableWords]; omega)

section CheckedLoop

variable {opts : ReaderOptions} {bytes : List UInt8} {left i offset total : Nat}
  {found : List (List UInt8)}

/-- The checked loop reads what the other one does, as long as the sizes stay in the limit. -/
theorem readSegmentsChecked_ok_iff {segments : List (List UInt8)}
    (within : total ≤ opts.maxMessageWords)
    : readSegmentsChecked opts bytes left i offset total found = .ok segments
      ↔ readSegments bytes left i offset found = some segments
        ∧ total + tableWords bytes i left ≤ opts.maxMessageWords := by
  induction left generalizing i offset total found with
  | zero => simp [readSegmentsChecked, readSegments, tableWords, within]
  | succ left ih =>
      simp only [readSegmentsChecked, readSegments, tableWords, segmentWords]
      split_ifs with large fits fits
      · simp only [false_iff]
        omega
      · simp only [false_and]
      · rw [ih (Nat.not_lt.mp large), Nat.add_assoc]
      · simp only [false_and]

/-- It stops where the sizes so far are too large or the next segment does not fit, by
induction on the table.
-/
theorem readSegmentsChecked_error_iff {reason : String}
    (inside : offset ≤ bytes.length) (within : total ≤ opts.maxMessageWords)
    : readSegmentsChecked opts bytes left i offset total found = .error reason
      ↔ ∃ k < left, StopsAt opts bytes i offset total k reason := by
  induction left generalizing i offset total found with
  | zero => simp [readSegmentsChecked]
  | succ left ih =>
      have later
          : (∃ k < left + 1, StopsAt opts bytes i offset total k reason)
            ↔ StopsAt opts bytes i offset total 0 reason
              ∨ ∃ k < left, StopsAt opts bytes (i + 1) (offset + segmentWords bytes i * 8)
                  (total + segmentWords bytes i) k reason := by
        simp only [← stopsAt_succ_iff]
        constructor
        · intro stops
          obtain ⟨k, less, stops⟩ := stops
          cases k with
          | zero => exact .inl stops
          | succ k => exact .inr ⟨k, Nat.lt_of_succ_lt_succ less, stops⟩
        · intro stops
          rcases stops with stops | ⟨k, less, stops⟩
          · exact ⟨0, Nat.succ_pos left, stops⟩
          · exact ⟨k + 1, Nat.succ_lt_succ less, stops⟩
      have size : (readUInt32LE bytes (4 + i * 4)).toNat = segmentWords bytes i := rfl
      rw [later, readSegmentsChecked]
      simp only [size]
      split_ifs with large fits
      · constructor
        · intro same
          obtain rfl := Except.error.inj same
          exact .inl (.tooLarge inside within large)
        · intro stops
          rcases stops with stops | ⟨k, -, stops⟩
          · cases stops with
            | tooLarge => rfl
            | truncated _ within' _ =>
                simp only [tableWords] at within'
                omega
          · cases stops <;> omega
      · rw [ih fits (Nat.not_lt.mp large)]
        refine (or_iff_right (fun stops => ?_)).symm
        cases stops with
        | tooLarge _ _ large' => exact large large'
        | truncated _ _ cut =>
            simp only [tableWords] at cut
            omega
      · constructor
        · intro same
          obtain rfl := Except.error.inj same
          exact .inl (.truncated inside (Nat.not_lt.mp large) (Nat.not_le.mp fits))
        · intro stops
          rcases stops with stops | ⟨k, -, stops⟩
          · cases stops with
            | tooLarge _ _ large' => exact absurd large' large
            | truncated => rfl
          · cases stops <;> omega

end CheckedLoop

/-- The words of all segments. -/
def messageWords (msg : Message) : Nat :=
  (msg.segments.map (fun segment => segment.length / 8)).sum

/-- The sizes in a table add up to those of its segments, by induction on them. -/
theorem tableWords_of_stands {bytes : List UInt8} {segments : List (List UInt8)} {i : Nat}
    (sizes : ∀ segment ∈ segments, Framable segment)
    (table : StandsAt bytes (4 + i * 4) (segments.flatMap sizeWire))
    : tableWords bytes i segments.length
      = (segments.map (fun segment => segment.length / 8)).sum := by
  induction segments generalizing i with
  | nil => rfl
  | cons segment rest ih =>
      rw [List.flatMap_cons, standsAt_append] at table
      obtain ⟨first, rest⟩ := table
      obtain ⟨-, size⟩ :=
        (standsAt_sizeWire_iff (sizes segment List.mem_cons_self)).mp first
      rw [sizeWire, length_uint32Le, Nat.add_assoc, ← Nat.succ_mul] at rest
      have later := ih (fun other member => sizes other (List.mem_cons_of_mem _ member)) rest
      rw [List.length_cons, tableWords, later, List.map_cons, List.sum_cons, segmentWords]
      omega

/-- The table of a framed message counts its words. -/
theorem Frames.tableWords_eq {msg : Message} {bytes : List UInt8} (frames : Frames msg bytes)
    : tableWords bytes 0 msg.segments.length = messageWords msg :=
  tableWords_of_stands frames.sizes (standsAt_append.mp frames.table).2

/-- What the checked reader says of bytes that do not start with a frame in the limits. -/
inductive Rejected (opts : ReaderOptions) (bytes : List UInt8) : String → Prop
  | headerTooSmall (short : bytes.length < 4)
      : Rejected opts bytes "message header too small"
  | tooManySegments (enough : 4 ≤ bytes.length)
      (many : opts.maxSegments < (readUInt32LE bytes 0).toNat + 1)
      : Rejected opts bytes "too many segments"
  | truncatedHeader (enough : 4 ≤ bytes.length)
      (few : (readUInt32LE bytes 0).toNat + 1 ≤ opts.maxSegments)
      (cut : bytes.length < headerBytes ((readUInt32LE bytes 0).toNat + 1))
      : Rejected opts bytes "truncated segment header"
  | stopped {k : Nat} {reason : String} (enough : 4 ≤ bytes.length)
      (few : (readUInt32LE bytes 0).toNat + 1 ≤ opts.maxSegments)
      (inside : headerBytes ((readUInt32LE bytes 0).toNat + 1) ≤ bytes.length)
      (listed : k < (readUInt32LE bytes 0).toNat + 1)
      (stops : StopsAt opts bytes 0 (headerBytes ((readUInt32LE bytes 0).toNat + 1)) 0 k reason)
      : Rejected opts bytes reason

/-- Accepted are exactly the framed messages within the limits. -/
theorem readMessageChecked_ok_iff {opts : ReaderOptions} {bytes : List UInt8} {msg : Message}
    : readMessageChecked opts bytes = .ok msg
      ↔ Frames msg bytes
        ∧ msg.segments.length ≤ opts.maxSegments
        ∧ messageWords msg ≤ opts.maxMessageWords := by
  constructor
  · intro read
    unfold readMessageChecked at read
    simp only at read
    split_ifs at read with short many cut
    split at read
    · next segments checked =>
        obtain rfl := Except.ok.inj read
        obtain ⟨loop, total⟩ := (readSegmentsChecked_ok_iff (Nat.zero_le _)).mp checked
        have header := le_headerBytes ((readUInt32LE bytes 0).toNat + 1)
        obtain ⟨more, same, length, -⟩ :=
          (readSegments_eq_some_iff (by omega) (Nat.not_lt.mp cut)).mp loop
        obtain rfl : segments = more := same
        have some : segments ≠ [] := by
          intro none
          rw [none] at length
          cases length
        have frames : Frames { segments := segments } bytes :=
          (frames_iff some).mpr ⟨Nat.not_lt.mp short, length.symm,
            by rw [length]; exact Nat.not_lt.mp cut, by rw [length]; exact loop⟩
        refine ⟨frames, by simp only [length]; omega, ?_⟩
        rw [← frames.tableWords_eq, length]
        omega
    · cases read
  · intro framed
    obtain ⟨frames, few, total⟩ := framed
    obtain ⟨enough, number, inside, loop⟩ := (frames_iff frames.some).mp frames
    rw [← frames.tableWords_eq] at total
    have checked := (readSegmentsChecked_ok_iff (Nat.zero_le opts.maxMessageWords)).mpr
      ⟨loop, (Nat.zero_add _).trans_le total⟩
    simp only [readMessageChecked, number, if_neg (Nat.not_lt.mpr enough),
      if_neg (Nat.not_lt.mpr few), if_neg (Nat.not_lt.mpr inside), checked]

/-- A rejection gives the first reason that there is. -/
theorem readMessageChecked_error_iff {opts : ReaderOptions} {bytes : List UInt8}
    {reason : String}
    : readMessageChecked opts bytes = .error reason ↔ Rejected opts bytes reason := by
  constructor
  · intro read
    unfold readMessageChecked at read
    simp only at read
    split_ifs at read with short many cut
    · obtain rfl := Except.error.inj read
      exact .headerTooSmall short
    · obtain rfl := Except.error.inj read
      exact .tooManySegments (Nat.not_lt.mp short) many
    · obtain rfl := Except.error.inj read
      exact .truncatedHeader (Nat.not_lt.mp short) (Nat.not_lt.mp many) cut
    · split at read
      · cases read
      · next stopped =>
          obtain rfl := Except.error.inj read
          obtain ⟨k, listed, stops⟩ :=
            (readSegmentsChecked_error_iff (Nat.not_lt.mp cut) (Nat.zero_le _)).mp stopped
          exact .stopped (Nat.not_lt.mp short) (Nat.not_lt.mp many) (Nat.not_lt.mp cut) listed
            stops
  · intro rejected
    unfold readMessageChecked
    cases rejected with
    | headerTooSmall short => rw [if_pos short]
    | tooManySegments enough many => simp only [if_neg (Nat.not_lt.mpr enough), if_pos many]
    | truncatedHeader enough few cut =>
        simp only [if_neg (Nat.not_lt.mpr enough), if_neg (Nat.not_lt.mpr few), if_pos cut]
    | stopped enough few inside listed stops =>
        simp only [if_neg (Nat.not_lt.mpr enough), if_neg (Nat.not_lt.mpr few),
          if_neg (Nat.not_lt.mpr inside),
          (readSegmentsChecked_error_iff inside (Nat.zero_le _)).mpr ⟨_, listed, stops⟩]

/-- The checked reader accepts the bytes that start with the frame of a message in the limits,
and says of any others what the first thing wrong with them is.
-/
theorem readMessageChecked_iff (opts : ReaderOptions) (bytes : List UInt8)
    : (∀ msg,
        readMessageChecked opts bytes = .ok msg
          ↔ Frames msg bytes
            ∧ msg.segments.length ≤ opts.maxSegments
            ∧ messageWords msg ≤ opts.maxMessageWords)
      ∧ ∀ reason, readMessageChecked opts bytes = .error reason ↔ Rejected opts bytes reason :=
  ⟨fun _ => readMessageChecked_ok_iff, fun _ => readMessageChecked_error_iff⟩

-----------------------------------------------------------------------------------------
-- What is written
-----------------------------------------------------------------------------------------

/-- The padding that is written behind the table. -/
def tablePadding (segCount : Nat) : List UInt8 :=
  if (segCount + 1) % 2 != 0 then uint32Le 0 else []

/-- The segments by their numbers. -/
theorem map_getSegment_range (msg : Message)
    : (List.range msg.segments.length).map (getSegment msg) = msg.segments := by
  refine List.ext_getElem (by simp) (fun i inside present => ?_)
  rw [List.getElem_map, List.getElem_range]
  exact List.getD_eq_getElem _ _ present

/-- The segments by their numbers, one behind the other. -/
theorem flatMap_getSegment_range (msg : Message)
    : (List.range msg.segments.length).flatMap (getSegment msg) = msg.segments.flatten := by
  rw [List.flatMap_def, map_getSegment_range]

/-- A message is written as its table, padding and segments. -/
theorem writeMessage_eq {msg : Message} (some : msg.segments ≠ [])
    : writeMessage msg
      = segmentTable msg ++ tablePadding msg.segments.length ++ msg.segments.flatten := by
  have sizes
      : (List.range msg.segments.length).flatMap (fun i => sizeWire (getSegment msg i))
        = msg.segments.flatMap sizeWire := by
    rw [← List.flatMap_map (getSegment msg) sizeWire, map_getSegment_range]
  have loop (out : List UInt8)
      : (List.range msg.segments.length).foldl
          (fun out i => appendUInt32LE out (UInt32.ofNat ((getSegment msg i).length / 8))) out
        = out ++ (List.range msg.segments.length).flatMap (fun i => sizeWire (getSegment msg i))
      :=
    List.foldl_append_eq_append
  have none : msg.segments.length ≠ 0 := fun none => some (List.eq_nil_of_length_eq_zero none)
  simp only [writeMessage, beq_iff_eq, if_neg none, loop, sizes,
    List.foldl_append_eq_append, ← List.flatMap_def, flatMap_getSegment_range]
  rw [segmentTable, tablePadding]
  split <;> simp [appendUInt32LE, uint32Le]

/-- Padding fills the table up to the size of the header. -/
theorem length_tablePadding (msg : Message)
    : (segmentTable msg ++ tablePadding msg.segments.length).length
      = headerBytes msg.segments.length := by
  rw [List.length_append, length_segmentTable]
  by_cases even : (msg.segments.length + 1) % 2 = 0
  · have none : tablePadding msg.segments.length = [] := if_neg (by rw [even]; decide)
    simp only [none, headerBytes, even, List.length_nil, beq_self_eq_true, if_true]
    omega
  · have word : tablePadding msg.segments.length = uint32Le 0 := if_pos (by simpa using even)
    simp only [word, headerBytes, beq_iff_eq, if_neg even, length_uint32Le]
    omega

/-- A message that a frame can hold. -/
structure Message.Framable (msg : Message) : Prop where
  some : msg.segments ≠ []
  count : msg.segments.length ≤ 2 ^ 32
  sizes : ∀ segment ∈ msg.segments, Capnp.Framable segment

/-- A message that a frame can hold is framed by what is written. -/
theorem Message.Framable.frames {msg : Message} (framable : msg.Framable) (rest : List UInt8)
    : Frames msg (writeMessage msg ++ rest) := by
  have whole
      : StandsAt (writeMessage msg ++ rest) 0
          (segmentTable msg ++ tablePadding msg.segments.length ++ msg.segments.flatten) := by
    rw [← writeMessage_eq framable.some]
    exact (standsAt_zero.mpr rfl).1.append rest
  obtain ⟨header, contents⟩ := standsAt_append.mp whole
  rw [length_tablePadding, Nat.zero_add] at contents
  exact ⟨framable.some, framable.count, framable.sizes, (standsAt_append.mp header).1, contents⟩

/-- Such a message is accepted again exactly where it stays in the limits. -/
theorem Message.Framable.readMessageChecked {msg : Message} (framable : msg.Framable)
    (opts : ReaderOptions) (rest : List UInt8)
    : readMessageChecked opts (writeMessage msg ++ rest) = .ok msg
      ↔ msg.segments.length ≤ opts.maxSegments ∧ messageWords msg ≤ opts.maxMessageWords :=
  readMessageChecked_ok_iff.trans (and_iff_right (framable.frames rest))

/-- A message is read back from what was written for it, whatever follows: by the checked
reader exactly where it stays in the limits.
-/
theorem readMessage_writeMessage {msg : Message} (framable : msg.Framable) (opts : ReaderOptions)
    (rest : List UInt8)
    : readMessage (writeMessage msg ++ rest) = msg
      ∧ (readMessageChecked opts (writeMessage msg ++ rest) = .ok msg
          ↔ msg.segments.length ≤ opts.maxSegments
            ∧ messageWords msg ≤ opts.maxMessageWords) :=
  ⟨readMessage_of_frames (framable.frames rest), framable.readMessageChecked opts rest⟩

def twoSegments : Message where
  segments := [[1, 2, 3, 4, 5, 6, 7, 8], []]

/-- Both segments are whole words. -/
theorem twoSegments_framable : twoSegments.Framable where
  some := List.cons_ne_nil _ _
  count := by decide
  sizes := by
    intro segment member
    rcases List.mem_pair.mp member with rfl | rfl
    · exact ⟨by decide, by decide⟩
    · exact ⟨by decide, by decide⟩

/-- Witness: two segments, with more bytes behind them, at their limits. -/
theorem readMessage_writeMessage_twoSegments
    : readMessage (writeMessage twoSegments ++ [9]) = twoSegments
      ∧ readMessageChecked { maxSegments := 2, maxMessageWords := 1 }
          (writeMessage twoSegments ++ [9]) = .ok twoSegments := by
  obtain ⟨plain, checked⟩ :=
    readMessage_writeMessage twoSegments_framable { maxSegments := 2, maxMessageWords := 1 } [9]
  exact ⟨plain, checked.mpr (by decide)⟩

end Capnp
