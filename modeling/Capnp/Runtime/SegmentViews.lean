import Capnp.Runtime.DataViews
import Capnp.Runtime.PackedWriter

/-! Messages whose segments are views into byte strings, as the readers of bytes make them and
the writers take them apart. Such a message stands for its contents, which is what the other
modules work on.
-/

namespace Capnp

/-- A byte at a machine-sized offset. The sum of the offsets may wrap around, but stays inside. -/
theorem toNat_offset_lt (seg : SegmentView) {byteOff : USize} (h : byteOff.toNat < seg.len)
    : (seg.off.toUSize + byteOff).toNat < seg.bytes.length := by
  have inside := seg.h
  have offset : seg.off.toUSize.toNat ≤ seg.off := by
    rw [Nat.toUSize, USize.toNat_ofNat']
    exact Nat.mod_le _ _
  have sum : (seg.off.toUSize + byteOff).toNat ≤ seg.off.toUSize.toNat + byteOff.toNat := by
    rw [USize.toNat_add]
    exact Nat.mod_le _ _
  omega

def readSegmentByteU (seg : SegmentView) (byteOff : USize) (h : byteOff.toNat < seg.len)
    : UInt8 :=
  seg.bytes.get ⟨(seg.off.toUSize + byteOff).toNat, toNat_offset_lt seg h⟩

/-- A number is no smaller than what is left of it in a machine word. -/
theorem toUSizeToNatLe (n : Nat) : n.toUSize.toNat ≤ n := by
  rw [Nat.toUSize, USize.toNat_ofNat']
  exact Nat.mod_le _ _

def appendSegmentView (ba : List UInt8) (seg : SegmentView) : List UInt8 :=
  (List.range seg.len).foldl (fun out i => out ++ [readSegmentByte seg i]) ba

/-- A message by views of the bytes that it was read from. -/
structure MessageViews where
  segments : List SegmentView

namespace MessageViews

/-- The bytes that the views cover. -/
def contents (msg : MessageViews) : Message where
  segments := msg.segments.map dataViewToByteArray

-----------------------------------------------------------------------------------------
-- Reading
-----------------------------------------------------------------------------------------

def getSegment (msg : MessageViews) (seg : Nat) : SegmentView :=
  msg.segments.getD seg emptySegmentView

def readByte (msg : MessageViews) (seg byteOff : Nat) : UInt8 :=
  readSegmentByte (msg.getSegment seg) byteOff

/-- A part that the segment has is read with machine-sized offsets, any other byte by byte. -/
def readBytes (msg : MessageViews) (seg byteOff count : Nat) : List UInt8 :=
  let segv := msg.getSegment seg
  if h : byteOff + count ≤ segv.len then
    List.ofFn (fun i : Fin count =>
      let idx := byteOff + i.1
      have hidx : idx < segv.len := Nat.lt_of_lt_of_le (Nat.add_lt_add_left i.isLt byteOff) h
      readSegmentByteU segv idx.toUSize (Nat.lt_of_le_of_lt (toUSizeToNatLe idx) hidx))
  else (List.range count).map (fun i => msg.readByte seg (byteOff + i))

/-- The loop over the table of a frame: each segment is a view into the bytes that are read. -/
def readSegments (bytes : List UInt8)
    : Nat → Nat → Nat → List SegmentView → Option (List SegmentView)
  | 0, _, _, segments => some segments
  | left + 1, i, offset, segments =>
      let sizeWords := readUInt32LE bytes (4 + i * 4)
      let sizeBytes := sizeWords.toNat * 8
      if h : offset + sizeBytes ≤ bytes.length then
        readSegments bytes left (i + 1) (offset + sizeBytes)
          (segments ++ [{ bytes := bytes, off := offset, len := sizeBytes, h := h }])
      else none

def readMessage (bytes : List UInt8) : MessageViews :=
  if bytes.length < 4 then { segments := [] }
  else
    let segCount := (readUInt32LE bytes 0).toNat + 1
    let headerBytes := headerBytes segCount
    if bytes.length < headerBytes then { segments := [] }
    else
      match readSegments bytes segCount 0 headerBytes [] with
      | some segments => { segments := segments }
      | none => { segments := [] }

def readSegmentsChecked (opts : ReaderOptions) (bytes : List UInt8)
    : Nat → Nat → Nat → Nat → List SegmentView → Except String (List SegmentView)
  | 0, _, _, _, segments => .ok segments
  | left + 1, i, offset, totalWords, segments =>
      let sizeWords := readUInt32LE bytes (4 + i * 4)
      let sizeBytes := sizeWords.toNat * 8
      let totalWords := totalWords + sizeWords.toNat
      if totalWords > opts.maxMessageWords then .error "message too large"
      else if h : offset + sizeBytes ≤ bytes.length then
        readSegmentsChecked opts bytes left (i + 1) (offset + sizeBytes) totalWords
          (segments ++ [{ bytes := bytes, off := offset, len := sizeBytes, h := h }])
      else .error "truncated segment data"

def readMessageChecked (opts : ReaderOptions) (bytes : List UInt8)
    : Except String MessageViews :=
  if bytes.length < 4 then .error "message header too small"
  else
    let segCount := (readUInt32LE bytes 0).toNat + 1
    if segCount > opts.maxSegments then .error "too many segments"
    else
      let headerBytes := headerBytes segCount
      if bytes.length < headerBytes then .error "truncated segment header"
      else
        match readSegmentsChecked opts bytes segCount 0 headerBytes 0 [] with
        | .ok segments => .ok { segments := segments }
        | .error reason => .error reason

-----------------------------------------------------------------------------------------
-- Writing
-----------------------------------------------------------------------------------------

def writeMessage (msg : MessageViews) : List UInt8 :=
  let segCount := msg.segments.length
  if segCount == 0 then []
  else
    let headerWords := segCount + 1
    let out := appendUInt32LE [] (UInt32.ofNat (segCount - 1))
    let out :=
      (List.range segCount).foldl
        (fun out i => appendUInt32LE out (UInt32.ofNat ((msg.getSegment i).len / 8))) out
    let out := if headerWords % 2 != 0 then appendUInt32LE out 0 else out
    (List.range segCount).foldl (fun out i => appendSegmentView out (msg.getSegment i)) out

def writeMessageHeader (msg : MessageViews) : List UInt8 :=
  let segCount := msg.segments.length
  if segCount == 0 then []
  else
    let headerWords := segCount + 1
    let out := appendUInt32LE [] (UInt32.ofNat (segCount - 1))
    let out :=
      (List.range segCount).foldl
        (fun out i => appendUInt32LE out (UInt32.ofNat ((msg.getSegment i).len / 8))) out
    if headerWords % 2 != 0 then appendUInt32LE out 0 else out

def writeMessageParts (msg : MessageViews) : List UInt8 × List SegmentView :=
  if msg.segments.length == 0 then ([], []) else (msg.writeMessageHeader, msg.segments)

/-- The write of one segment: nothing, the whole byte string, or a part of it. -/
def writeSegmentTo (seg : SegmentView) : List (List UInt8) :=
  if seg.len == 0 then []
  else if seg.off == 0 && seg.len == seg.bytes.length then [seg.bytes]
  else [seg.bytes.extract seg.off (seg.off + seg.len)]

/-- The writes to the handle, in their order. -/
def writeMessageTo (msg : MessageViews) : List (List UInt8) :=
  let (header, segs) := msg.writeMessageParts
  (if header.length != 0 then [header] else []) ++ segs.flatMap writeSegmentTo

-----------------------------------------------------------------------------------------
-- Views against their contents
-----------------------------------------------------------------------------------------

/-- A view has the bytes that it names. -/
theorem length_dataViewToByteArray (v : SegmentView) : (dataViewToByteArray v).length = v.len := by
  have inside := v.h
  rw [dataViewToByteArray, List.length_take, List.length_drop]
  omega

/-- A byte of a view is that of its contents; past the end both are zero. -/
theorem readSegmentByte_eq_getD (v : SegmentView) (i : Nat)
    : readSegmentByte v i = (dataViewToByteArray v).getD i 0 := by
  unfold readSegmentByte dataViewToByteArray
  split_ifs with inside
  · rw [List.getD_eq_getElem?_getD, List.getD_eq_getElem?_getD, List.getElem?_take_of_lt inside,
      List.getElem?_drop]
  · rw [List.getD_eq_default]
    exact (length_dataViewToByteArray v).trans_le (Nat.le_of_not_lt inside)

/-- Where offsets fit the machine, a machine-sized offset reads the same byte. -/
theorem readSegmentByteU_eq {v : SegmentView} (fits : v.bytes.length ≤ USize.size) {i : Nat}
    (inside : i < v.len) (h : i.toUSize.toNat < v.len)
    : readSegmentByteU v i.toUSize h = readSegmentByte v i := by
  have place := v.h
  have number {n : Nat} (small : n < v.bytes.length) : n.toUSize.toNat = n :=
    USize.toNat_ofNat_of_lt' (Nat.lt_of_lt_of_le small fits)
  have sum : (v.off.toUSize + i.toUSize).toNat = v.off + i := by
    rw [USize.toNat_add, number (by omega), number (by omega)]
    exact Nat.mod_eq_of_lt (Nat.lt_of_lt_of_le (by omega : v.off + i < v.bytes.length) fits)
  have present : v.off + i < v.bytes.length := by omega
  rw [readSegmentByte, if_pos inside, List.getD_eq_getElem _ _ present]
  simp only [readSegmentByteU, List.get_eq_getElem, sum]

/-- The bytes of a view, one after the other, are its contents. -/
theorem appendSegmentView_eq (ba : List UInt8) (seg : SegmentView)
    : appendSegmentView ba seg = ba ++ dataViewToByteArray seg := by
  have bytes : (List.range seg.len).map (readSegmentByte seg) = dataViewToByteArray seg := by
    apply List.ext_getElem
    · simp [length_dataViewToByteArray]
    · intro i left right
      rw [List.getElem_map, List.getElem_range, readSegmentByte_eq_getD,
        List.getD_eq_getElem _ _ right]
  rw [appendSegmentView, List.foldl_append_eq_append, ← List.flatMap_def, ← List.map_eq_flatMap,
    bytes]

/-- The bytes of a segment are those of its view. -/
theorem getSegment_contents (msg : MessageViews) (seg : Nat)
    : Capnp.getSegment msg.contents seg = dataViewToByteArray (msg.getSegment seg) :=
  List.getD_map msg.segments emptySegmentView dataViewToByteArray

/-- Reading a byte through a view. -/
theorem readByte_contents (msg : MessageViews) (seg byteOff : Nat)
    : Capnp.readByte msg.contents seg byteOff = msg.readByte seg byteOff := by
  rw [Capnp.readByte, getSegment_contents, readByte, readSegmentByte_eq_getD]

/-- Both ways of reading a range of bytes give those of the contents. -/
theorem readBytes_contents {msg : MessageViews} {seg : Nat}
    (fits : (msg.getSegment seg).bytes.length ≤ USize.size) (byteOff count : Nat)
    : Capnp.readBytes msg.contents seg byteOff count = msg.readBytes seg byteOff count := by
  have each (i : Nat) : Capnp.readByte msg.contents seg (byteOff + i)
      = readSegmentByte (msg.getSegment seg) (byteOff + i) :=
    readByte_contents msg seg (byteOff + i)
  simp only [Capnp.readBytes, readBytes, each]
  split_ifs with inside
  · apply List.ext_getElem
    · simp
    · intro i left right
      have index : i < count := by simpa using left
      rw [List.getElem_map, List.getElem_range, List.getElem_ofFn]
      exact (readSegmentByteU_eq fits (by omega) _).symm
  · rfl

-----------------------------------------------------------------------------------------
-- Readers of bytes
-----------------------------------------------------------------------------------------

/-- The loops over segments and over views run alike, by induction on the segments left. -/
theorem map_readSegments (bytes : List UInt8) (left i offset : Nat) (segments : List SegmentView)
    : (readSegments bytes left i offset segments).map (List.map dataViewToByteArray)
      = Capnp.readSegments bytes left i offset (segments.map dataViewToByteArray) := by
  induction left generalizing i offset segments with
  | zero => rfl
  | succ left ih =>
      rw [readSegments, Capnp.readSegments]
      split_ifs
      · rw [ih, List.map_append]
        rfl
      · rfl

/-- The plain reader's views cover the contents of the message. -/
theorem contents_readMessage (bytes : List UInt8)
    : (readMessage bytes).contents = Capnp.readMessage bytes := by
  rw [readMessage, Capnp.readMessage]
  split_ifs
  · rfl
  dsimp only
  split_ifs
  · rfl
  · have same := map_readSegments bytes ((readUInt32LE bytes 0).toNat + 1) 0
      (headerBytes ((readUInt32LE bytes 0).toNat + 1)) []
    rw [List.map_nil] at same
    rw [← same]
    cases readSegments bytes ((readUInt32LE bytes 0).toNat + 1) 0
      (headerBytes ((readUInt32LE bytes 0).toNat + 1)) [] <;> rfl

/-- The same for the checked loop. -/
theorem map_readSegmentsChecked (opts : ReaderOptions) (bytes : List UInt8)
    (left i offset totalWords : Nat) (segments : List SegmentView)
    : (readSegmentsChecked opts bytes left i offset totalWords segments).map
        (List.map dataViewToByteArray)
      = Capnp.readSegmentsChecked opts bytes left i offset totalWords
          (segments.map dataViewToByteArray) := by
  induction left generalizing i offset totalWords segments with
  | zero => rfl
  | succ left ih =>
      rw [readSegmentsChecked, Capnp.readSegmentsChecked]
      split_ifs
      · rfl
      · rw [ih, List.map_append]
        rfl
      · rfl

/-- The checked reader fails alike, and its views cover the contents of the message. -/
theorem contents_readMessageChecked (opts : ReaderOptions) (bytes : List UInt8)
    : (readMessageChecked opts bytes).map contents = Capnp.readMessageChecked opts bytes := by
  rw [readMessageChecked, Capnp.readMessageChecked]
  split_ifs
  · rfl
  dsimp only
  split_ifs
  · rfl
  · rfl
  · have same := map_readSegmentsChecked opts bytes ((readUInt32LE bytes 0).toNat + 1) 0
      (headerBytes ((readUInt32LE bytes 0).toNat + 1)) 0 []
    rw [List.map_nil] at same
    rw [← same]
    cases readSegmentsChecked opts bytes ((readUInt32LE bytes 0).toNat + 1) 0
      (headerBytes ((readUInt32LE bytes 0).toNat + 1)) 0 [] <;> rfl

/-- All views of a message that is read are into the bytes that it is read from. -/
theorem bytes_of_mem_readSegments {bytes : List UInt8} {left i offset : Nat}
    {segments all : List SegmentView} (read : readSegments bytes left i offset segments = some all)
    (before : ∀ view ∈ segments, view.bytes = bytes)
    : ∀ view ∈ all, view.bytes = bytes := by
  induction left generalizing i offset segments with
  | zero =>
      obtain rfl := Option.some.inj read
      exact before
  | succ left ih =>
      rw [readSegments] at read
      split_ifs at read
      · refine ih read (fun view member => ?_)
        rcases List.mem_append.mp member with old | new
        · exact before view old
        · rw [List.mem_singleton.mp new]

/-- All views are of the bytes given. -/
theorem bytes_of_mem_readMessage {bytes : List UInt8} {view : SegmentView}
    (member : view ∈ (readMessage bytes).segments)
    : view.bytes = bytes := by
  rw [readMessage] at member
  split_ifs at member
  · exact absurd member List.not_mem_nil
  dsimp only at member
  split_ifs at member
  · exact absurd member List.not_mem_nil
  · split at member
    next all read =>
      exact bytes_of_mem_readSegments read (fun _ none => absurd none List.not_mem_nil) view member
    next => exact absurd member List.not_mem_nil

/-- Reading from the views of a message is reading from its contents: the frame, plain and
checked, single bytes, and ranges of bytes on the way with machine-sized offsets, too.
-/
theorem readers_refine (bytes : List UInt8) (fits : bytes.length ≤ USize.size)
    : (readMessage bytes).contents = Capnp.readMessage bytes
      ∧ (∀ opts, (readMessageChecked opts bytes).map contents = Capnp.readMessageChecked opts bytes)
      ∧ ∀ seg byteOff,
          (readMessage bytes).readByte seg byteOff
            = Capnp.readByte (Capnp.readMessage bytes) seg byteOff
          ∧ ∀ count,
              (readMessage bytes).readBytes seg byteOff count
              = Capnp.readBytes (Capnp.readMessage bytes) seg byteOff count := by
  refine ⟨contents_readMessage bytes, fun opts => contents_readMessageChecked opts bytes, ?_⟩
  intro seg byteOff
  rw [← contents_readMessage]
  have small : ((readMessage bytes).getSegment seg).bytes.length ≤ USize.size := by
    rw [getSegment, List.getD_eq_getElem?_getD]
    cases present : (readMessage bytes).segments[seg]? with
    | none => exact Nat.zero_le _
    | some view =>
        rw [Option.getD_some, bytes_of_mem_readMessage (List.mem_of_getElem? present)]
        exact fits
  exact ⟨(readByte_contents _ _ _).symm, fun count => (readBytes_contents small _ _).symm⟩

/-- Witness: the written bytes of two segments. -/
theorem readers_refine_twoSegments
    : (readMessage (Capnp.writeMessage twoSegments)).contents = twoSegments
      ∧ (readMessage (Capnp.writeMessage twoSegments)).readBytes 1 0 8
        = Capnp.readBytes (Capnp.readMessage (Capnp.writeMessage twoSegments)) 1 0 8 := by
  have small : (Capnp.writeMessage twoSegments).length ≤ 2 ^ 32 := by decide
  obtain ⟨frame, -, reads⟩ := readers_refine _ (small.trans USize.le_size)
  exact ⟨frame.trans (by decide), (reads 1 0).2 8⟩

-----------------------------------------------------------------------------------------
-- Writers of bytes
-----------------------------------------------------------------------------------------

/-- There are as many segments as views. -/
theorem length_segments_contents (msg : MessageViews)
    : msg.contents.segments.length = msg.segments.length :=
  List.length_map _

/-- The views are written as their contents. -/
theorem writeMessage_contents (msg : MessageViews)
    : Capnp.writeMessage msg.contents = msg.writeMessage := by
  simp only [Capnp.writeMessage, writeMessage, length_segments_contents, getSegment_contents,
    length_dataViewToByteArray, appendSegmentView_eq]

/-- The header is written from the sizes of the views. -/
theorem writeMessageHeader_contents (msg : MessageViews)
    : Capnp.writeMessageHeader msg.contents = msg.writeMessageHeader := by
  simp only [Capnp.writeMessageHeader, writeMessageHeader, length_segments_contents,
    getSegment_contents, length_dataViewToByteArray]

/-- The whole byte string and the part that is cut out are the contents alike. -/
theorem writeSegmentTo_eq (seg : SegmentView)
    : writeSegmentTo seg
      = [dataViewToByteArray seg].filter (fun part => part.length != 0) := by
  rw [writeSegmentTo, List.filter_cons, List.filter_nil, length_dataViewToByteArray]
  by_cases empty : seg.len = 0
  · simp [empty]
  · have some : (seg.len != 0) = true := by simpa using empty
    rw [if_neg (by simpa using empty), if_pos some]
    split_ifs with whole
    · obtain ⟨start, all⟩ : seg.off = 0 ∧ seg.len = seg.bytes.length := by simpa using whole
      rw [dataViewToByteArray, start, all, List.drop_zero, List.take_length]
    · rw [List.extract_eq_take_drop, Nat.add_sub_cancel_left]
      rfl

/-- The writes of the segments, by list induction. -/
theorem flatMap_writeSegmentTo (segs : List SegmentView)
    : segs.flatMap writeSegmentTo
      = (segs.map dataViewToByteArray).filter (fun part => part.length != 0) := by
  induction segs with
  | nil => rfl
  | cons seg rest ih =>
      rw [List.flatMap_cons, ih, writeSegmentTo_eq, List.map_cons,
        ← List.filter_append, List.singleton_append]

/-- The writes are the header and the contents of the segments, each in one piece and without
the empty ones; in all they are the bytes of the message.
-/
theorem flatten_writeMessageTo (msg : MessageViews)
    : msg.writeMessageTo
        = (msg.writeMessageHeader :: msg.contents.segments).filter
            (fun part => part.length != 0)
      ∧ msg.writeMessageTo.flatten = msg.writeMessage
      ∧ msg.writeMessage = Capnp.writeMessage msg.contents := by
  have parts : msg.writeMessageTo
      = (msg.writeMessageHeader :: msg.contents.segments).filter
          (fun part => part.length != 0) := by
    by_cases none : msg.segments = []
    · simp [writeMessageTo, writeMessageParts, writeMessageHeader, contents, none]
    · have some : ¬ (msg.segments.length == 0) = true := by simpa using none
      simp only [writeMessageTo, writeMessageParts, if_neg some, flatMap_writeSegmentTo]
      rw [List.filter_cons]
      split_ifs <;> rfl
  have nonempty (parts : List (List UInt8))
      : (parts.filter (fun part => part.length != 0)).flatten = parts.flatten := by
    induction parts with
    | nil => rfl
    | cons part rest ih => cases part <;> simp [ih]
  refine ⟨parts, ?_, (writeMessage_contents msg).symm⟩
  rw [parts, nonempty, List.flatten_cons, ← writeMessageHeader_contents,
    writeMessageHeader_append, writeMessage_contents]

end MessageViews

end Capnp
