import Capnp.Library.ByteString
import Capnp.Runtime.Reader

/-! Data and text of a message, read as a copy or as a view into the segment. A view lies in
its segment; a copy takes bytes outside of it as zero.
-/

namespace Capnp

open ByteString

-----------------------------------------------------------------------------------------
-- Views
-----------------------------------------------------------------------------------------

/-- A part of a byte string. -/
structure SegmentView where
  bytes : List UInt8
  off : Nat
  len : Nat
  h : off + len ≤ bytes.length

abbrev DataView := SegmentView
abbrev TextView := SegmentView

def emptySegmentView : SegmentView where
  bytes := []
  off := 0
  len := 0
  h := Nat.le_refl 0

/-- A segment of a message as the view of all its bytes. -/
def segmentView (msg : Message) (seg : Nat) : SegmentView where
  bytes := getSegment msg seg
  off := 0
  len := (getSegment msg seg).length
  h := by omega

def subSegmentView (seg : SegmentView) (start len : Nat) (h : start + len ≤ seg.len)
    : SegmentView where
  bytes := seg.bytes
  off := seg.off + start
  len := len
  h := by
    have inside := seg.h
    omega

def readSegmentByte (seg : SegmentView) (byteOff : Nat) : UInt8 :=
  if byteOff < seg.len then seg.bytes.getD (seg.off + byteOff) 0 else 0

def dataViewToByteArray (v : DataView) : List UInt8 :=
  (v.bytes.drop v.off).take v.len

def textViewToString (v : TextView) : String :=
  match fromUtf8? (dataViewToByteArray v) with
  | some s => s
  | none => ""

def readData (p : AnyPointer) : List UInt8 :=
  match decodeListPtr p with
  | some d =>
      if d.inlineComposite || d.elemSize != elemSizeByte then []
      else readBytes d.msg d.seg (d.startWord * 8) d.elemCount
  | none => []

def readDataView (p : AnyPointer) : DataView :=
  match decodeListPtr p with
  | some d =>
      if d.inlineComposite || d.elemSize != elemSizeByte then emptySegmentView
      else
        let segv := segmentView d.msg d.seg
        let start := d.startWord * 8
        let len := d.elemCount
        if h : start + len ≤ segv.len then subSegmentView segv start len h else emptySegmentView
  | none => emptySegmentView

def readText (p : AnyPointer) : String :=
  let bytes := readData p
  let len := bytes.length
  let trimmed := if len > 0 && bytes.getD (len - 1) 0 == 0 then bytes.take (len - 1) else bytes
  match fromUtf8? trimmed with
  | some s => s
  | none => ""

def readTextView (p : AnyPointer) : TextView :=
  let v := readDataView p
  if v.len == 0 then emptySegmentView
  else if readSegmentByte v (v.len - 1) != 0 then emptySegmentView
  else subSegmentView v 0 (v.len - 1) (by omega)

def withDefaultPointer (p defaultPtr : AnyPointer) : AnyPointer :=
  if isNullPointer p then defaultPtr else p

/-- The pointer that the generated accessors of a field read from. -/
def fieldPointer (r : StructReader) (offset : Nat) (defaultPtr : Option AnyPointer)
    : AnyPointer :=
  match defaultPtr with
  | none => getPointer r offset
  | some defaultPtr => withDefaultPointer (getPointer r offset) defaultPtr

section Accessors

variable (r : StructReader) (offset : Nat) (defaultPtr : Option AnyPointer)

/-- The accessors that the code generator emits for a data field and for a text field. -/
def dataAccessor : List UInt8 := readData (fieldPointer r offset defaultPtr)

def dataViewAccessor : DataView := readDataView (fieldPointer r offset defaultPtr)

def textAccessor : String := readText (fieldPointer r offset defaultPtr)

def textViewAccessor : TextView := readTextView (fieldPointer r offset defaultPtr)

end Accessors

/-- The list of bytes that a pointer points to. -/
def byteList (p : AnyPointer) : Option ListPointer :=
  (decodeListPtr p).filter (fun d => !(d.inlineComposite || d.elemSize != elemSizeByte))

namespace ListPointer

/-- The segment has all bytes of the list. -/
def InBounds (d : ListPointer) : Prop :=
  d.startWord * 8 + d.elemCount ≤ (getSegment d.msg d.seg).length

/-- The last byte, at its place in the segment, is zero. -/
def Terminated (d : ListPointer) : Prop :=
  0 < d.elemCount ∧ readByte d.msg d.seg (d.startWord * 8 + (d.elemCount - 1)) = 0

instance (d : ListPointer) : Decidable d.InBounds :=
  inferInstanceAs (Decidable (_ ≤ _))

instance (d : ListPointer) : Decidable d.Terminated :=
  inferInstanceAs (Decidable (_ ∧ _))

/-- The bytes of the segment at the places of the list, without a terminator. -/
def textBytes (d : ListPointer) : List UInt8 :=
  readBytes d.msg d.seg (d.startWord * 8)
    (if d.Terminated then d.elemCount - 1 else d.elemCount)

end ListPointer

/-- The list of bytes is empty or in bounds. -/
def DataViewable (p : AnyPointer) : Prop :=
  ∀ d ∈ byteList p, d.elemCount = 0 ∨ d.InBounds

/-- The list of bytes is in bounds and terminated, or its text is empty or not valid. -/
def TextViewable (p : AnyPointer) : Prop :=
  ∀ d ∈ byteList p,
    (d.InBounds ∧ d.Terminated) ∨ d.textBytes = [] ∨ ¬ ValidUtf8 d.textBytes

-----------------------------------------------------------------------------------------
-- Views against copies
-----------------------------------------------------------------------------------------

/-- Bytes read within a segment are a slice of it. -/
theorem readBytes_eq_slice {msg : Message} {seg byteOff count : Nat}
    (inside : byteOff + count ≤ (getSegment msg seg).length)
    : readBytes msg seg byteOff count = ((getSegment msg seg).drop byteOff).take count := by
  apply List.ext_getElem
  · simp only [readBytes, List.length_map, List.length_range, List.length_take, List.length_drop]
    omega
  · intro i left right
    simp only [readBytes, List.length_map, List.length_range] at left
    have present : byteOff + i < (getSegment msg seg).length := by omega
    simp [readBytes, readByte, List.getD, List.getElem?_eq_getElem present]

/-- As many bytes are read as are asked for, also outside the segment. -/
theorem length_readBytes (msg : Message) (seg byteOff count : Nat)
    : (readBytes msg seg byteOff count).length = count := by
  simp [readBytes]

/-- A shorter read gives the first bytes of a longer one. -/
theorem take_readBytes (msg : Message) (seg byteOff : Nat) {count more : Nat}
    (shorter : count ≤ more)
    : (readBytes msg seg byteOff more).take count = readBytes msg seg byteOff count := by
  rw [readBytes, ← List.map_take, List.take_range, Nat.min_eq_left shorter, readBytes]

/-- Without a list of bytes both readers give nothing. -/
theorem readers_of_none {p : AnyPointer} (none : byteList p = none)
    : readData p = [] ∧ readDataView p = emptySegmentView := by
  unfold byteList at none
  cases decoded : decodeListPtr p with
  | none => simp [readData, readDataView, decoded]
  | some d =>
      rw [decoded, Option.filter_eq_none_iff] at none
      have other := none d rfl
      rw [Bool.not_eq_true', Bool.not_eq_false] at other
      simp only [readData, readDataView, decoded, other, if_true, and_self]

/-- With one, the copy takes its bytes, and the view refuses a list that leaves the segment. -/
theorem readers_of_some {p : AnyPointer} {d : ListPointer} (some : byteList p = some d)
    : readData p = readBytes d.msg d.seg (d.startWord * 8) d.elemCount
      ∧ readDataView p
        = if h : d.InBounds then
            subSegmentView (segmentView d.msg d.seg) (d.startWord * 8) d.elemCount h
          else emptySegmentView := by
  unfold byteList at some
  obtain ⟨decoded, bytes⟩ := Option.filter_eq_some_iff.mp some
  rw [Bool.not_eq_true'] at bytes
  simp only [readData, readDataView, decoded, bytes, Bool.false_eq_true, if_false, true_and]
  rfl

/-- The empty view has no bytes. -/
theorem dataViewToByteArray_empty : dataViewToByteArray emptySegmentView = [] := rfl

/-- The view of a list in its segment. -/
theorem dataViewToByteArray_list {d : ListPointer} (inBounds : d.InBounds)
    : dataViewToByteArray
        (subSegmentView (segmentView d.msg d.seg) (d.startWord * 8) d.elemCount inBounds)
      = readBytes d.msg d.seg (d.startWord * 8) d.elemCount := by
  rw [readBytes_eq_slice inBounds]
  simp [dataViewToByteArray, subSegmentView, segmentView]

/-- A view cut short. -/
theorem dataViewToByteArray_front (v : DataView) {count : Nat} (h : 0 + count ≤ v.len)
    : dataViewToByteArray (subSegmentView v 0 count h)
      = (dataViewToByteArray v).take count := by
  simp only [dataViewToByteArray, subSegmentView, Nat.add_zero, List.take_take]
  rw [Nat.min_eq_left (by omega)]

/-- The last byte of a copied list and of its view. -/
theorem getD_last_readBytes {d : ListPointer} (positive : 0 < d.elemCount)
    : (readBytes d.msg d.seg (d.startWord * 8) d.elemCount).getD (d.elemCount - 1) 0
      = readByte d.msg d.seg (d.startWord * 8 + (d.elemCount - 1)) := by
  have inside : d.elemCount - 1 < d.elemCount := by omega
  simp [readBytes, List.getD, inside]

/-- The last byte of a view. -/
theorem readSegmentByte_last {d : ListPointer} (inBounds : d.InBounds)
    (positive : 0 < d.elemCount)
    : readSegmentByte
        (subSegmentView (segmentView d.msg d.seg) (d.startWord * 8) d.elemCount inBounds)
        (d.elemCount - 1)
      = readByte d.msg d.seg (d.startWord * 8 + (d.elemCount - 1)) := by
  have inside : d.elemCount - 1 < d.elemCount := by omega
  simp [readSegmentByte, subSegmentView, segmentView, readByte, inside]

/-- A view on a list of bytes has its bytes where it is in bounds, and none elsewhere. -/
theorem dataViewToByteArray_readDataView {p : AnyPointer} {d : ListPointer}
    (some : byteList p = some d)
    : dataViewToByteArray (readDataView p)
      = if d.InBounds then readBytes d.msg d.seg (d.startWord * 8) d.elemCount else [] := by
  rw [(readers_of_some some).2]
  by_cases inBounds : d.InBounds
  · rw [dif_pos inBounds, if_pos inBounds, dataViewToByteArray_list inBounds]
  · rw [dif_neg inBounds, if_neg inBounds]
    rfl

/-- View and copy of data agree exactly where the list stays in its segment. -/
theorem readDataView_agrees_iff (p : AnyPointer)
    : dataViewToByteArray (readDataView p) = readData p ↔ DataViewable p := by
  cases list : byteList p with
  | none =>
      obtain ⟨data, view⟩ := readers_of_none list
      simp [data, view, dataViewToByteArray_empty, DataViewable, list]
  | some d =>
      rw [dataViewToByteArray_readDataView list, (readers_of_some list).1]
      simp only [DataViewable, list, Option.mem_def, Option.some.injEq, forall_eq']
      by_cases inBounds : d.InBounds
      · simp [inBounds]
      · rw [if_neg inBounds, eq_comm, ← List.length_eq_zero_iff, length_readBytes]
        simp [inBounds]

/-- What is left of a copy without its terminator. -/
theorem readText_of_some {p : AnyPointer} {d : ListPointer} (some : byteList p = some d)
    : readText p = (fromUtf8? d.textBytes).getD "" := by
  have trimmed
      : (if d.elemCount > 0
            && (readBytes d.msg d.seg (d.startWord * 8) d.elemCount).getD (d.elemCount - 1) 0 == 0
          then
            (readBytes d.msg d.seg (d.startWord * 8) d.elemCount).take (d.elemCount - 1)
          else readBytes d.msg d.seg (d.startWord * 8) d.elemCount)
        = d.textBytes := by
    unfold ListPointer.textBytes
    rcases Nat.eq_zero_or_pos d.elemCount with empty | positive
    · have open' : ¬ d.Terminated := fun terminated => terminated.1.ne' empty
      rw [if_neg open', if_neg (by simp [empty])]
    rw [getD_last_readBytes positive]
    by_cases zero : readByte d.msg d.seg (d.startWord * 8 + (d.elemCount - 1)) = 0
    · have last : (d.elemCount > 0 && (0 : UInt8) == 0) = true := by simp [positive]
      rw [zero, if_pos last, if_pos ⟨positive, zero⟩]
      exact take_readBytes _ _ _ (by omega)
    · have open' : ¬ d.Terminated := fun terminated => zero terminated.2
      rw [if_neg open', if_neg (by simp [zero])]
  unfold readText
  simp only [(readers_of_some some).1, length_readBytes, trimmed]
  cases fromUtf8? d.textBytes <;> rfl

/-- The text in a view of data lacks its last byte, which must be zero. -/
theorem dataViewToByteArray_text (v : DataView)
    : dataViewToByteArray
        (if v.len == 0 then emptySegmentView
          else if readSegmentByte v (v.len - 1) != 0 then emptySegmentView
          else subSegmentView v 0 (v.len - 1) (by omega))
      = if v.len ≠ 0 ∧ readSegmentByte v (v.len - 1) = 0 then
          (dataViewToByteArray v).take (v.len - 1)
        else [] := by
  by_cases empty : v.len = 0
  · rw [if_pos (beq_iff_eq.mpr empty), if_neg (fun kept => kept.1 empty)]
    rfl
  · rw [if_neg (fun same => empty (beq_iff_eq.mp same))]
    by_cases zero : readSegmentByte v (v.len - 1) = 0
    · rw [if_neg (by simp [zero]), if_pos ⟨empty, zero⟩]
      exact dataViewToByteArray_front v _
    · rw [if_pos (bne_iff_ne.mpr zero), if_neg (fun kept => zero kept.2)]
      rfl

/-- A text's view is the data's without its last byte, which has to be zero. -/
theorem dataViewToByteArray_readTextView (p : AnyPointer)
    : dataViewToByteArray (readTextView p)
      = if (readDataView p).len ≠ 0
            ∧ readSegmentByte (readDataView p) ((readDataView p).len - 1) = 0 then
          (dataViewToByteArray (readDataView p)).take ((readDataView p).len - 1)
        else [] :=
  dataViewToByteArray_text (readDataView p)

/-- The bytes of a text view are those of the text where the list is in bounds and
terminated.
-/
theorem textViewToString_of_some {p : AnyPointer} {d : ListPointer} (some : byteList p = some d)
    : textViewToString (readTextView p)
      = (fromUtf8? (if d.InBounds ∧ d.Terminated then d.textBytes else [])).getD "" := by
  have bytes
      : dataViewToByteArray (readTextView p)
        = if d.InBounds ∧ d.Terminated then d.textBytes else [] := by
    rw [dataViewToByteArray_readTextView, dataViewToByteArray_readDataView some,
      (readers_of_some some).2]
    by_cases inBounds : d.InBounds
    · simp only [inBounds, dif_pos, if_true, true_and]
      have length : (subSegmentView (segmentView d.msg d.seg) (d.startWord * 8) d.elemCount
          inBounds).len = d.elemCount := rfl
      have last (positive : 0 < d.elemCount) := readSegmentByte_last inBounds positive
      by_cases terminated : d.Terminated
      · obtain ⟨positive, zero⟩ := terminated
        rw [if_pos ⟨by omega, (last positive).trans zero⟩, if_pos ⟨positive, zero⟩,
          ListPointer.textBytes, if_pos ⟨positive, zero⟩, length]
        exact take_readBytes _ _ _ (by omega)
      · rw [if_neg terminated, if_neg]
        intro kept
        obtain ⟨nonempty, zero⟩ := kept
        rw [length] at nonempty zero
        have positive : 0 < d.elemCount := by omega
        exact terminated ⟨positive, (last positive).symm.trans zero⟩
    · simp [inBounds, emptySegmentView]
  unfold textViewToString
  rw [bytes]
  cases fromUtf8? (if d.InBounds ∧ d.Terminated then d.textBytes else []) <;> rfl

/-- A text read from bytes is empty when there are none or they are no text. -/
theorem getD_fromUtf8?_eq_empty_iff {bytes : List UInt8}
    : (fromUtf8? bytes).getD "" = "" ↔ bytes = [] ∨ ¬ ValidUtf8 bytes := by
  cases read : fromUtf8? bytes with
  | none =>
      have invalid : ¬ ValidUtf8 bytes := by
        intro valid
        obtain ⟨text, written⟩ := validUtf8_iff.mp valid
        rw [fromUtf8?_eq_some_iff.mpr written] at read
        cases read
      simp [invalid]
  | some text =>
      have written := fromUtf8?_eq_some_iff.mp read
      have valid : ValidUtf8 bytes := validUtf8_iff.mpr ⟨text, written⟩
      simp only [Option.getD_some, valid, not_true, or_false]
      constructor
      · intro empty
        subst empty
        exact written.symm
      · intro empty
        subst empty
        exact Option.some.inj (read.symm.trans (fromUtf8?_eq_some_iff.mpr rfl))

/-- Without a list of bytes both texts are the one of no bytes. -/
theorem texts_of_none {p : AnyPointer} (absent : byteList p = none)
    : readText p = (fromUtf8? []).getD ""
      ∧ textViewToString (readTextView p) = (fromUtf8? []).getD "" := by
  obtain ⟨data, view⟩ := readers_of_none absent
  constructor
  · unfold readText
    rw [data]
    show (match fromUtf8? [] with
      | some s => s
      | none => "") = _
    cases fromUtf8? [] <;> rfl
  · have noBytes : dataViewToByteArray (readTextView p) = [] := by
      rw [dataViewToByteArray_readTextView, view]
      rfl
    rw [textViewToString, noBytes]
    cases fromUtf8? [] <;> rfl

/-- View and copy of a text agree exactly under the condition. -/
theorem readTextView_agrees_iff (p : AnyPointer)
    : textViewToString (readTextView p) = readText p ↔ TextViewable p := by
  cases list : byteList p with
  | none =>
      obtain ⟨text, textView⟩ := texts_of_none list
      have same := textView.trans text.symm
      simp [same, TextViewable, list]
  | some d =>
      rw [textViewToString_of_some list, readText_of_some list]
      simp only [TextViewable, list, Option.mem_def, Option.some.injEq, forall_eq']
      by_cases kept : d.InBounds ∧ d.Terminated
      · simp [kept]
      · rw [if_neg kept, eq_comm]
        have empty : (fromUtf8? []).getD "" = "" := getD_fromUtf8?_eq_empty_iff.mpr (.inl rfl)
        rw [empty, getD_fromUtf8?_eq_empty_iff]
        simp only [kept, false_or]

/-- A view and a copy have the same content exactly where the pointer's list is viewable, for
data and for text, and so do the accessors of a field.
-/
theorem views_agree_iff (p : AnyPointer)
    : (dataViewToByteArray (readDataView p) = readData p ↔ DataViewable p)
      ∧ (textViewToString (readTextView p) = readText p ↔ TextViewable p)
      ∧ ∀ (r : StructReader) (offset : Nat) (defaultPtr : Option AnyPointer),
          (dataViewToByteArray (dataViewAccessor r offset defaultPtr)
              = dataAccessor r offset defaultPtr
            ↔ DataViewable (fieldPointer r offset defaultPtr))
          ∧ (textViewToString (textViewAccessor r offset defaultPtr)
              = textAccessor r offset defaultPtr
            ↔ TextViewable (fieldPointer r offset defaultPtr)) :=
  ⟨readDataView_agrees_iff p, readTextView_agrees_iff p,
    fun _ _ _ => ⟨readDataView_agrees_iff _, readTextView_agrees_iff _⟩⟩

/-- A list of two bytes without a terminator, and a list of three behind the segment. -/
def unterminated : Message where
  segments := [[1, 0, 0, 0, 0x12, 0, 0, 0, 0x68, 0x69, 0, 0, 0, 0, 0, 0]]

def truncated : Message where
  segments := [[1, 0, 0, 0, 0x1a, 0, 0, 0]]

/-- A list of bytes that leaves its segment. -/
theorem views_disagree
    : ¬ (∀ p : AnyPointer, dataViewToByteArray (readDataView p) = readData p)
      ∧ ¬ (∀ p : AnyPointer, textViewToString (readTextView p) = readText p) := by
  constructor
  · intro always
    exact absurd (always (getRoot truncated)) (by decide)
  · intro always
    have list : byteList (getRoot unterminated)
        = some ⟨unterminated, 0, 1, 2, 2, 0, 0, false⟩ := rfl
    have viewable := (readTextView_agrees_iff _).mp (always (getRoot unterminated)) _ list
    rcases viewable with ⟨-, terminated⟩ | empty | invalid
    · exact absurd terminated (by decide)
    · exact absurd empty (by decide)
    · exact invalid (validUtf8_iff.mpr ⟨"hi", by decide⟩)

end Capnp
