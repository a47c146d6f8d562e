import Capnp.Runtime.DataViews

/-! The checked readers of data and text. A list that the checks accept lies within its
segment, so that a checked copy and a checked view never differ, and the readers without
checks read the same from it.
-/

namespace Capnp

open ByteString

def readDataChecked (p : AnyPointer) : Except String (List UInt8) := do
  match ← decodeListPtrChecked p with
  | none => return []
  | some d =>
      if d.inlineComposite || d.elemSize != elemSizeByte then throw "data pointer kind mismatch"
      else return readBytes d.msg d.seg (d.startWord * 8) d.elemCount

def readDataViewChecked (p : AnyPointer) : Except String DataView := do
  match ← decodeListPtrChecked p with
  | none => return emptySegmentView
  | some d =>
      if d.inlineComposite || d.elemSize != elemSizeByte then throw "data pointer kind mismatch"
      else
        let segv := segmentView d.msg d.seg
        let start := d.startWord * 8
        let len := d.elemCount
        if h : start + len ≤ segv.len then return subSegmentView segv start len h
        else throw "data out of bounds"

def readTextChecked (p : AnyPointer) : Except String String := do
  let bytes ← readDataChecked p
  let len := bytes.length
  if len == 0 then return ""
  else if bytes.getD (len - 1) 0 != 0 then throw "text missing NUL terminator"
  else
    match fromUtf8? (bytes.take (len - 1)) with
    | some s => return s
    | none => throw "invalid utf8"

def readTextViewChecked (p : AnyPointer) : Except String TextView := do
  let v ← readDataViewChecked p
  if v.len == 0 then return emptySegmentView
  else if readSegmentByte v (v.len - 1) != 0 then throw "text missing NUL terminator"
  else
    return subSegmentView v 0 (v.len - 1)
      ((Nat.zero_add _).trans_le (Nat.sub_le v.len 1))

-----------------------------------------------------------------------------------------
-- What the checks accept
-----------------------------------------------------------------------------------------

/-- A word that is accepted is the plain reader's. -/
theorem readWordChecked_eq_ok {msg : Message} {seg wordOff : Nat} {w : UInt64}
    (read : readWordChecked msg seg wordOff = .ok w)
    : w = readWord msg seg wordOff := by
  unfold readWordChecked at read
  split_ifs at read
  exact (Except.ok.inj read).symm

/-- The checks only narrow what resolves. -/
theorem resolveDirectPointerChecked_eq_ok {msg : Message} {seg word : Nat}
    {resolved : Option ResolvedPointer}
    (checked : resolveDirectPointerChecked msg seg word = .ok resolved)
    : resolveDirectPointer msg seg word = resolved := by
  obtain ⟨w, read, checked⟩ := bind_eq_ok_iff.mp checked
  obtain rfl := readWordChecked_eq_ok read
  unfold resolveDirectPointer
  split_ifs at checked with null far capability
  · obtain rfl := Except.ok.inj checked
    simp [null]
  · cases target : pointerTarget word (readWord msg seg word) with
    | none => simp [target, throw, throwThe, MonadExceptOf.throw] at checked
    | some t =>
        simp only [target] at checked
        split_ifs at checked
        obtain rfl := Except.ok.inj checked
        simp [null, far, capability, target]

/-- A target that is accepted is the plain reader's. -/
theorem resolvePointerChecked_eq_ok {p : AnyPointer} {resolved : Option ResolvedPointer}
    (checked : resolvePointerChecked p = .ok resolved)
    : resolvePointer p = resolved := by
  obtain ⟨w, read, checked⟩ := bind_eq_ok_iff.mp checked
  obtain rfl := readWordChecked_eq_ok read
  unfold resolvePointer
  simp only at checked ⊢
  split_ifs at checked with null capability near outside double
  · obtain rfl := Except.ok.inj checked
    rw [if_pos null]
  · rw [if_neg null, if_pos near]
    exact resolveDirectPointerChecked_eq_ok checked
  · rw [if_neg null, if_neg near, if_neg outside, if_pos double]
    obtain ⟨pad, readPad, checked⟩ := bind_eq_ok_iff.mp checked
    obtain rfl := readWordChecked_eq_ok readPad
    split_ifs at checked with invalid missing behind
    obtain rfl := Except.ok.inj checked
    rw [if_neg invalid, if_neg missing]
  · rw [if_neg null, if_neg near, if_neg outside, if_neg double]
    exact resolveDirectPointerChecked_eq_ok checked

/-- A list whose words are in its segment has its bytes there. -/
theorem inBounds_plainList {r : ResolvedPointer} {w : UInt64}
    (bytes : wordElemSize w = elemSizeByte)
    (inside
      : r.targetWord + listDataWords (wordElemSize w) (wordElemCount w)
        ≤ segmentWordCount r.msg r.targetSeg)
    : (plainList r w).InBounds := by
  have words : listDataWords elemSizeByte (wordElemCount w) = (wordElemCount w + 7) / 8 := rfl
  rw [bytes, words] at inside
  show r.targetWord * 8 + wordElemCount w ≤ (getSegment r.msg r.targetSeg).length
  unfold segmentWordCount at inside
  omega

/-- A checked list is the one that the decoder without checks finds, and a list of bytes lies
within its segment.
-/
theorem decodeListPtrChecked_eq_ok {p : AnyPointer} {list : Option ListPointer}
    (checked : decodeListPtrChecked p = .ok list)
    : decodeListPtr p = list ∧ ∀ d ∈ list, d.elemSize = elemSizeByte → d.InBounds := by
  obtain ⟨resolved, resolving, checked⟩ := bind_eq_ok_iff.mp checked
  have resolves := resolvePointerChecked_eq_ok resolving
  unfold decodeListPtr
  rw [resolves]
  cases resolved with
  | none =>
      obtain rfl := Except.ok.inj checked
      exact ⟨rfl, fun _ member => nomatch member⟩
  | some r =>
      obtain ⟨w, read, checked⟩ := bind_eq_ok_iff.mp checked
      obtain rfl := readWordChecked_eq_ok read
      dsimp only
      split_ifs at checked with other composite outside inside
      · obtain ⟨tag, readTag, checked⟩ := bind_eq_ok_iff.mp checked
        obtain rfl := readWordChecked_eq_ok readTag
        split_ifs at checked with noStruct overrun
        obtain rfl := Except.ok.inj checked
        rw [if_neg other, if_pos composite, if_neg noStruct]
        refine ⟨rfl, fun d member bytes => ?_⟩
        obtain rfl := Option.some.inj member
        have composite : elemSizeInlineComposite = elemSizeByte := bytes
        exact absurd composite (by decide)
      · obtain rfl := Except.ok.inj checked
        rw [if_neg other, if_neg composite]
        refine ⟨rfl, fun d member bytes => ?_⟩
        obtain rfl := Option.some.inj member
        exact inBounds_plainList bytes inside

-----------------------------------------------------------------------------------------
-- Checked views against checked copies
-----------------------------------------------------------------------------------------

/-- The checked readers refuse a pointer alike, find nothing in it, or find a list of bytes
within its segment.
-/
inductive ChecksData (p : AnyPointer) : Prop
  | refused (message : String) (copy : readDataChecked p = .error message)
    (view : readDataViewChecked p = .error message)
  | absent (list : byteList p = none) (copy : readDataChecked p = .ok [])
    (view : readDataViewChecked p = .ok emptySegmentView)
  | found (d : ListPointer) (list : byteList p = some d) (inBounds : d.InBounds)
    (copy : readDataChecked p = .ok (readBytes d.msg d.seg (d.startWord * 8) d.elemCount))
    (view
      : readDataViewChecked p
        = .ok (subSegmentView (segmentView d.msg d.seg) (d.startWord * 8) d.elemCount inBounds))

/-- The checked readers of data accept what is inside its segment. -/
theorem checksData (p : AnyPointer) : ChecksData p := by
  cases checked : decodeListPtrChecked p with
  | error message =>
      exact .refused message (by rw [readDataChecked, checked]; rfl)
        (by rw [readDataViewChecked, checked]; rfl)
  | ok list =>
      obtain ⟨decoded, within⟩ := decodeListPtrChecked_eq_ok checked
      cases list with
      | none =>
          refine .absent ?_ (by rw [readDataChecked, checked]; rfl)
            (by rw [readDataViewChecked, checked]; rfl)
          rw [byteList, decoded]
          rfl
      | some d =>
          cases kind : (d.inlineComposite || d.elemSize != elemSizeByte) with
          | true =>
              refine .refused "data pointer kind mismatch" ?_ ?_
              · rw [readDataChecked, checked]
                exact if_pos kind
              · rw [readDataViewChecked, checked]
                exact if_pos kind
          | false =>
              have bytes : d.elemSize = elemSizeByte := by
                simpa using (Bool.or_eq_false_iff.mp kind).2
              have inBounds := within d rfl bytes
              have passes : ¬ (d.inlineComposite || d.elemSize != elemSizeByte) = true := by
                simp [kind]
              refine .found d ?_ inBounds ?_ ?_
              · rw [byteList, decoded, Option.filter_some, kind]
                rfl
              · rw [readDataChecked, checked]
                exact if_neg passes
              · rw [readDataViewChecked, checked]
                exact (if_neg passes).trans (dif_pos inBounds)

/-- A checked view has the bytes of the checked copy, and fails where that fails. -/
theorem readDataViewChecked_agrees (p : AnyPointer)
    : (readDataViewChecked p).map dataViewToByteArray = readDataChecked p := by
  cases checksData p with
  | refused message copy view => rw [copy, view]; rfl
  | absent list copy view => rw [copy, view]; rfl
  | found d list inBounds copy view =>
      rw [copy, view, ← dataViewToByteArray_list inBounds]
      rfl

/-- What the checks accept is read alike without them. -/
theorem readData_of_checked {p : AnyPointer} {bytes : List UInt8}
    (checked : readDataChecked p = .ok bytes)
    : readData p = bytes ∧ dataViewToByteArray (readDataView p) = bytes := by
  cases checksData p with
  | refused message copy view => exact nomatch copy.symm.trans checked
  | absent list copy view =>
      obtain rfl := Except.ok.inj (copy.symm.trans checked)
      obtain ⟨data, dataView⟩ := readers_of_none list
      exact ⟨data, dataView ▸ dataViewToByteArray_empty⟩
  | found d list inBounds copy view =>
      obtain rfl := Except.ok.inj (copy.symm.trans checked)
      refine ⟨(readers_of_some list).1, ?_⟩
      rw [dataViewToByteArray_readDataView list, if_pos inBounds]

/-- A view that the checks accept is the one that is taken without them. -/
theorem readDataView_of_checked {p : AnyPointer} {v : DataView}
    (checked : readDataViewChecked p = .ok v)
    : readDataView p = v := by
  cases checksData p with
  | refused message copy view => exact nomatch view.symm.trans checked
  | absent list copy view =>
      obtain rfl := Except.ok.inj (view.symm.trans checked)
      exact (readers_of_none list).2
  | found d list inBounds copy view =>
      obtain rfl := Except.ok.inj (view.symm.trans checked)
      rw [(readers_of_some list).2, dif_pos inBounds]

/-- A text view that the checks accept is the one that is taken without them. -/
theorem readTextView_of_checked {p : AnyPointer} {v : TextView}
    (checked : readTextViewChecked p = .ok v)
    : readTextView p = v := by
  obtain ⟨data, read, checked⟩ := bind_eq_ok_iff.mp checked
  obtain rfl := readDataView_of_checked read
  unfold readTextView
  dsimp only at checked ⊢
  split_ifs at checked with empty unterminated
  · obtain rfl := Except.ok.inj checked
    rw [if_pos empty]
  · obtain rfl := Except.ok.inj checked
    rw [if_neg empty, if_neg unterminated]

/-- A checked text is what the checked view holds, where that is valid. -/
theorem readTextChecked_eq (p : AnyPointer)
    : readTextChecked p
      = (readTextViewChecked p).bind (fun v =>
          match fromUtf8? (dataViewToByteArray v) with
          | some s => .ok s
          | none => .error "invalid utf8") := by
  have noText
      : (.ok "" : Except String String)
        = match fromUtf8? (dataViewToByteArray emptySegmentView) with
          | some s => .ok s
          | none => .error "invalid utf8" := by
    have empty : fromUtf8? (dataViewToByteArray emptySegmentView) = some "" := by decide
    rw [empty]
  unfold readTextChecked readTextViewChecked
  cases checksData p with
  | refused message copy view =>
      rw [copy, view]
      rfl
  | absent list copy view =>
      rw [copy, view]
      exact noText
  | found d list inBounds copy view =>
      rw [copy, view]
      have length : (subSegmentView (segmentView d.msg d.seg) (d.startWord * 8) d.elemCount
          inBounds).len = d.elemCount := rfl
      simp only [bind, Except.bind, length_readBytes, length]
      rcases Nat.eq_zero_or_pos d.elemCount with zero | positive
      · rw [if_pos (by simp [zero]), if_pos (by simp [zero])]
        exact noText
      · have some : ¬ (d.elemCount == 0) = true := by simp; omega
        rw [if_neg some, if_neg some, readSegmentByte_last inBounds positive,
          getD_last_readBytes positive]
        split_ifs with open'
        · rfl
        · simp only [pure, Except.pure, dataViewToByteArray_front,
            dataViewToByteArray_list inBounds]
          split <;> rfl

/-- A checked text of a list is that of its bytes without the terminator. -/
theorem textBytes_of_checked {p : AnyPointer} {d : ListPointer} {text : String}
    (copy : readDataChecked p = .ok (readBytes d.msg d.seg (d.startWord * 8) d.elemCount))
    (checked : readTextChecked p = .ok text)
    : (d.Terminated ∨ d.elemCount = 0) ∧ fromUtf8? d.textBytes = some text := by
  obtain ⟨bytes, read, checked⟩ := bind_eq_ok_iff.mp checked
  obtain rfl := Except.ok.inj (copy.symm.trans read)
  simp only [length_readBytes] at checked
  split_ifs at checked with empty unterminated
  · have zero : d.elemCount = 0 := by simpa using empty
    have open' : ¬ d.Terminated := fun terminated => terminated.1.ne' zero
    obtain rfl := Except.ok.inj checked
    refine ⟨.inr zero, ?_⟩
    rw [ListPointer.textBytes, if_neg open', zero]
    have empty : fromUtf8? [] = some "" := by decide
    exact empty
  · have positive : 0 < d.elemCount := by
      simp only [beq_iff_eq] at empty
      omega
    rw [getD_last_readBytes positive] at unterminated
    have terminated : d.Terminated := ⟨positive, by simpa using unterminated⟩
    rw [take_readBytes _ _ _ (Nat.sub_le _ _)] at checked
    rw [ListPointer.textBytes, if_pos terminated]
    refine ⟨.inl terminated, ?_⟩
    split at checked
    next s valid =>
      obtain rfl := Except.ok.inj checked
      exact valid
    next => exact nomatch checked

/-- A checked text is read alike without the checks. -/
theorem readText_of_checked {p : AnyPointer} {text : String}
    (checked : readTextChecked p = .ok text)
    : readText p = text ∧ textViewToString (readTextView p) = text := by
  have noText : (fromUtf8? []).getD "" = "" := getD_fromUtf8?_eq_empty_iff.mpr (.inl rfl)
  cases checksData p with
  | refused message copy view =>
      obtain ⟨bytes, read, -⟩ := bind_eq_ok_iff.mp checked
      exact nomatch copy.symm.trans read
  | absent list copy view =>
      obtain ⟨bytes, read, checked⟩ := bind_eq_ok_iff.mp checked
      obtain rfl := Except.ok.inj (copy.symm.trans read)
      obtain rfl : "" = text := Except.ok.inj checked
      obtain ⟨text, textView⟩ := texts_of_none list
      exact ⟨text.trans noText, textView.trans noText⟩
  | found d list inBounds copy view =>
      obtain ⟨ends, bytes⟩ := textBytes_of_checked copy checked
      refine ⟨by rw [readText_of_some list, bytes, Option.getD_some], ?_⟩
      rw [textViewToString_of_some list]
      rcases ends with terminated | zero
      · rw [if_pos ⟨inBounds, terminated⟩, bytes, Option.getD_some]
      · have open' : ¬ d.Terminated := fun terminated => terminated.1.ne' zero
        rw [if_neg (fun both => open' both.2), noText]
        have empty : d.textBytes = [] := by
          rw [ListPointer.textBytes, if_neg open', zero]
          rfl
        rw [empty] at bytes
        rw [bytes, Option.getD_some] at noText
        exact noText.symm

/-- What the checked readers of data and text accept is read alike without the checks, as a
copy and as a view; the two checked readers of data accept the same pointers, and a checked
text is a checked view that holds a valid text.
-/
structure ByteReadersAgree (p : AnyPointer) : Prop where
  data
    : ∀ bytes, readDataChecked p = .ok bytes →
        readData p = bytes ∧ dataViewToByteArray (readDataView p) = bytes
  dataView : ∀ v, readDataViewChecked p = .ok v → readDataView p = v
  text
    : ∀ text, readTextChecked p = .ok text →
        readText p = text ∧ textViewToString (readTextView p) = text
  textView : ∀ v, readTextViewChecked p = .ok v → readTextView p = v
  checkedData : (readDataViewChecked p).map dataViewToByteArray = readDataChecked p
  checkedText
    : readTextChecked p
      = (readTextViewChecked p).bind (fun v =>
          match fromUtf8? (dataViewToByteArray v) with
          | some s => .ok s
          | none => .error "invalid utf8")

/-- All checked readers of data and texts give what the plain ones give. -/
theorem byteReaders_agree (p : AnyPointer) : ByteReadersAgree p where
  data _ := readData_of_checked
  dataView _ := readDataView_of_checked
  text _ := readText_of_checked
  textView _ := readTextView_of_checked
  checkedData := readDataViewChecked_agrees p
  checkedText := readTextChecked_eq p

end Capnp
