import Capnp.Runtime.Reader

/-! Message builders: segments that grow by allocation, the objects that pointers are
initialised with, and the writers of words and bytes.
-/

namespace Capnp

/-- The segments in the making, with the words in use of each. -/
structure MessageBuilder where
  segments : List (List UInt8)
  usedWords : List Nat
  currentSeg : Nat
  nextWord : Nat
  defaultSegmentWords : Nat
deriving DecidableEq

/-- Where a pointer is. -/
structure AnyPointerBuilder where
  seg : Nat
  word : Nat
deriving DecidableEq

/-- Where a struct has its data and its pointers. -/
structure StructBuilder where
  seg : Nat
  dataOff : Nat
  dataWords : Nat
  ptrOff : Nat
  ptrCount : Nat
deriving DecidableEq

/-- Where a list has its elements. -/
structure ListBuilder where
  seg : Nat
  startWord : Nat
  elemSize : Nat
  elemCount : Nat
  structDataWords : Nat
  structPtrCount : Nat
  inlineComposite : Bool

def initMessageBuilder (segmentWords : Nat) : MessageBuilder :=
  let words := max 1 segmentWords
  { segments := [List.replicate (words * 8) 0]
    usedWords := [1]
    currentSeg := 0
    nextWord := 1
    defaultSegmentWords := words }

def buildMessage (b : MessageBuilder) : Message where
  segments :=
    b.segments.mapIdx (fun i ba => ba.take (min (b.usedWords.getD i (ba.length / 8) * 8) ba.length))

def getRootPointer : AnyPointerBuilder where
  seg := 0
  word := 0

/-- A segment that does not exist is not written. -/
def modifySegment (seg : Nat) (f : List UInt8 → List UInt8) (st : MessageBuilder)
    : MessageBuilder :=
  { st with segments := st.segments.set seg (f (st.segments.getD seg [])) }

/-- The loop of `setByteU`, which does nothing past the end. -/
def setBytes (ba : List UInt8) (byteOff count : Nat) (byte : Nat → UInt8) : List UInt8 :=
  (List.range count).foldl (fun out i => out.set (byteOff + i) (byte i)) ba

def writeWordLE (seg wordOff : Nat) (w : UInt64) : MessageBuilder → MessageBuilder :=
  modifySegment seg (fun ba => setBytes ba (wordOff * 8) 8 (fun i => (shr64 w (8 * i)).toUInt8))

def writeBytesAt (seg byteOff : Nat) (src : List UInt8) : MessageBuilder → MessageBuilder :=
  modifySegment seg (fun ba => setBytes ba byteOff src.length (fun i => src.getD i 0))

def segmentWordCapacity (seg : List UInt8) : Nat :=
  seg.length / 8

/-- Whether so many words fit behind the current segment's last ones. -/
def fits (st : MessageBuilder) (n : Nat) : Bool :=
  decide (st.nextWord + n ≤ segmentWordCapacity (st.segments.getD st.currentSeg []))

def allocWords (n : Nat) (st : MessageBuilder) : (Nat × Nat) × MessageBuilder :=
  if fits st n then
    let next := st.nextWord + n
    ((st.currentSeg, st.nextWord),
      { st with
        nextWord := next
        usedWords :=
          st.usedWords.set st.currentSeg (max (st.usedWords.getD st.currentSeg 0) next) })
  else
    let size := max st.defaultSegmentWords n
    let newSeg := st.segments.length
    ((newSeg, 0),
      { st with
        segments := st.segments ++ [List.replicate (size * 8) 0]
        usedWords := st.usedWords ++ [n]
        currentSeg := newSeg
        nextWord := n })

-----------------------------------------------------------------------------------------
-- Pointer words
-----------------------------------------------------------------------------------------

def intToUInt (bits : Nat) (x : Int) : UInt64 :=
  if x ≥ 0 then UInt64.ofNat x.toNat else UInt64.ofNat (2 ^ bits - (-x).toNat)

def encodeStructPointer (offset : Int) (dataWords ptrCount : Nat) : UInt64 :=
  (intToUInt 30 offset <<< 2) ||| (UInt64.ofNat dataWords <<< 32)
    ||| (UInt64.ofNat ptrCount <<< 48)

def encodeStructTag (elemCount dataWords ptrCount : Nat) : UInt64 :=
  (UInt64.ofNat elemCount <<< 2) ||| (UInt64.ofNat dataWords <<< 32)
    ||| (UInt64.ofNat ptrCount <<< 48)

def encodeListPointer (offset : Int) (elemSize elemCount : Nat) : UInt64 :=
  (1 : UInt64) ||| (intToUInt 30 offset <<< 2) ||| (UInt64.ofNat elemSize <<< 32)
    ||| (UInt64.ofNat elemCount <<< 35)

def encodeFarPointer (isDouble : Bool) (segId offset : Nat) : UInt64 :=
  let dbl := if isDouble then 1 else 0
  (2 : UInt64) ||| (UInt64.ofNat dbl <<< 2) ||| (UInt64.ofNat offset <<< 3)
    ||| (UInt64.ofNat segId <<< 32)

def encodeCapabilityPointer (index : UInt32) : UInt64 :=
  (3 : UInt64) ||| (index.toUInt64 <<< 32)

def clearPointer (p : AnyPointerBuilder) : MessageBuilder → MessageBuilder :=
  writeWordLE p.seg p.word 0

def writeCapability (p : AnyPointerBuilder) (cap : UInt32) : MessageBuilder → MessageBuilder :=
  writeWordLE p.seg p.word (encodeCapabilityPointer cap)

/-- An object of `words` words behind a pointer. One in the pointer's own segment is pointed
to directly; any other has its pointer in a landing pad in front of it. `encode` makes the
pointer from its offset.
-/
def initObject (p : AnyPointerBuilder) (words : Nat) (encode : Int → UInt64)
    (st : MessageBuilder) : (Nat × Nat) × MessageBuilder :=
  if p.seg = st.currentSeg ∧ fits st words then
    let ((seg, start), st) := allocWords words st
    ((seg, start),
      writeWordLE p.seg p.word (encode (Int.ofNat start - Int.ofNat (p.word + 1))) st)
  else
    let ((seg, padStart), st) := allocWords (words + 1) st
    ((seg, padStart + 1),
      writeWordLE seg padStart (encode 0)
        (writeWordLE p.seg p.word (encodeFarPointer false seg padStart) st))

def initStructPointer (p : AnyPointerBuilder) (dataWords ptrCount : Nat) (st : MessageBuilder)
    : StructBuilder × MessageBuilder :=
  let ((seg, start), st) :=
    initObject p (dataWords + ptrCount)
      (fun offset => encodeStructPointer offset dataWords ptrCount) st
  ({ seg := seg, dataOff := start, dataWords := dataWords, ptrOff := start + dataWords,
     ptrCount := ptrCount },
    st)

/-- The words that a list is given; every size but the scalar ones takes a word an element. -/
def initListWords (elemSize elemCount : Nat) : Nat :=
  if elemSize = elemSizeVoid then 0
  else if elemSize = elemSizeBit then roundUpToWords (roundUpToBytes elemCount)
  else if elemSize = elemSizeByte then roundUpToWords elemCount
  else if elemSize = elemSizeTwoBytes then roundUpToWords (elemCount * 2)
  else if elemSize = elemSizeFourBytes then roundUpToWords (elemCount * 4)
  else elemCount

def initListPointer (p : AnyPointerBuilder) (elemSize elemCount : Nat) (st : MessageBuilder)
    : ListBuilder × MessageBuilder :=
  let ((seg, start), st) :=
    initObject p (initListWords elemSize elemCount)
      (fun offset => encodeListPointer offset elemSize elemCount) st
  ({ seg := seg, startWord := start, elemSize := elemSize, elemCount := elemCount,
     structDataWords := 0, structPtrCount := 0, inlineComposite := false },
    st)

/-- The tag takes the first word of the list. -/
def initStructListPointer (p : AnyPointerBuilder) (dataWords ptrCount elemCount : Nat)
    (st : MessageBuilder) : ListBuilder × MessageBuilder :=
  let listWordCount := elemCount * (dataWords + ptrCount)
  let ((seg, start), st) :=
    initObject p (1 + listWordCount)
      (fun offset => encodeListPointer offset elemSizeInlineComposite listWordCount) st
  ({ seg := seg, startWord := start + 1, elemSize := elemSizeInlineComposite,
     elemCount := elemCount, structDataWords := dataWords, structPtrCount := ptrCount,
     inlineComposite := true },
    writeWordLE seg start (encodeStructTag elemCount dataWords ptrCount) st)

def listStructBuilders (l : ListBuilder) : List StructBuilder :=
  if l.inlineComposite then
    let elemWords := l.structDataWords + l.structPtrCount
    (List.range l.elemCount).map
      (fun i =>
        let base := if elemWords = 0 then l.startWord else l.startWord + i * elemWords
        { seg := l.seg, dataOff := base, dataWords := l.structDataWords,
          ptrOff := base + l.structDataWords, ptrCount := l.structPtrCount })
  else []

def listPointerBuilders (l : ListBuilder) : List AnyPointerBuilder :=
  if l.inlineComposite || l.elemSize != elemSizePointer then []
  else (List.range l.elemCount).map (fun i => { seg := l.seg, word := l.startWord + i })

def writeListPointer (p : AnyPointerBuilder) (count : Nat) (st : MessageBuilder)
    : List AnyPointerBuilder × MessageBuilder :=
  let (lb, st) := initListPointer p elemSizePointer count st
  (listPointerBuilders lb, st)

def getPointerBuilder (r : StructBuilder) (index : Nat) : AnyPointerBuilder where
  seg := r.seg
  word := r.ptrOff + index

-----------------------------------------------------------------------------------------
-- Copying
-----------------------------------------------------------------------------------------

def readCapability (p : AnyPointer) : UInt32 :=
  let w := readWord p.msg p.seg p.word
  if w &&& 0xffffffff == 3 then (shr64 w 32).toUInt32 else 0

/-- `copyStruct`, with `copyPointer` for the recursive call. -/
def copyStructWith
    (copyPointer : AnyPointerBuilder → AnyPointer → MessageBuilder → Option MessageBuilder)
    (dst : StructBuilder) (src : StructReader) (st : MessageBuilder) : Option MessageBuilder :=
  let st :=
    (List.range src.dataWords).foldl
      (fun st i =>
        writeWordLE dst.seg (dst.dataOff + i) (readWord src.msg src.seg (src.dataOff + i)) st)
      st
  (List.range src.ptrCount).foldlM
    (fun st i => copyPointer (getPointerBuilder dst i) (getPointer src i) st) st

/-- The element pointers of a list of pointers. -/
def ListPointer.elementPointer (src : ListPointer) (i : Nat) : AnyPointer where
  msg := src.msg
  seg := src.seg
  word := src.startWord + i

/-- `copyList`, with `copyPointer` for the recursive call. -/
def copyListWith
    (copyPointer : AnyPointerBuilder → AnyPointer → MessageBuilder → Option MessageBuilder)
    (dst : AnyPointerBuilder) (src : ListPointer) (st : MessageBuilder) : Option MessageBuilder :=
  if src.inlineComposite then
    let (lb, st) :=
      initStructListPointer dst src.structDataWords src.structPtrCount src.elemCount st
    let builders := listStructBuilders lb
    let emptySb : StructBuilder :=
      { seg := 0, dataOff := 0, dataWords := 0, ptrOff := 0, ptrCount := 0 }
    (List.range src.elemCount).foldlM
      (fun st i => copyStructWith copyPointer (builders.getD i emptySb) (src.structReader i) st) st
  else if src.elemSize = elemSizePointer then
    let (ptrs, st) := writeListPointer dst src.elemCount st
    (List.range src.elemCount).foldlM
      (fun st i => copyPointer (ptrs.getD i { seg := 0, word := 0 }) (src.elementPointer i) st) st
  else
    let (lb, st) := initListPointer dst src.elemSize src.elemCount st
    let words := listDataWords src.elemSize src.elemCount
    if words > 0 then
      some (writeBytesAt lb.seg (lb.startWord * 8)
        (readBytes src.msg src.seg (src.startWord * 8) (words * 8)) st)
    else some st

/-- The source's recursion has no bound; `fuel` bounds its depth. -/
def copyAnyPointer
    : Nat → AnyPointerBuilder → AnyPointer → MessageBuilder → Option MessageBuilder
  | 0, _, _, _ => none
  | fuel + 1, dst, src, st =>
      let w := readWord src.msg src.seg src.word
      if w == 0 then some (clearPointer dst st)
      else if w &&& 3 == 3 then some (writeCapability dst (readCapability src) st)
      else
        match decodeStructPtr src with
        | some sr =>
            let (sb, st) := initStructPointer dst sr.dataWords sr.ptrCount st
            copyStructWith (copyAnyPointer fuel) sb sr st
        | none =>
            match decodeListPtr src with
            | some lp => copyListWith (copyAnyPointer fuel) dst lp st
            | none => some (clearPointer dst st)

def copyStruct (fuel : Nat)
    : StructBuilder → StructReader → MessageBuilder → Option MessageBuilder :=
  copyStructWith (copyAnyPointer fuel)

end Capnp
