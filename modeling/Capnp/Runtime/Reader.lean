import Capnp.Runtime.Message
import Mathlib.Data.Int.Basic

/-! Pointers and the readers of the objects they lead to. Each decoding comes in two
versions: a lenient one that falls back to an empty object, and a checked one with errors.
-/

namespace Capnp

/-- Where a pointer leads, and the word with the sizes. -/
structure ResolvedPointer where
  msg : Message
  tagSeg : Nat
  tagWord : Nat
  targetSeg : Nat
  targetWord : Nat

/-- Where a struct has its data and its pointers. -/
structure StructReader where
  msg : Message
  seg : Nat
  dataOff : Nat
  dataWords : Nat
  ptrOff : Nat
  ptrCount : Nat
deriving DecidableEq

/-- Where a list has its elements, and their sizes. -/
structure ListPointer where
  msg : Message
  seg : Nat
  startWord : Nat
  elemSize : Nat
  elemCount : Nat
  structDataWords : Nat
  structPtrCount : Nat
  inlineComposite : Bool

def emptyStruct (msg : Message) (seg : Nat) : StructReader where
  msg := msg
  seg := seg
  dataOff := 0
  dataWords := 0
  ptrOff := 0
  ptrCount := 0

-----------------------------------------------------------------------------------------
-- Resolving pointers
-----------------------------------------------------------------------------------------

def toNat? (i : Int) : Option Nat :=
  if i < 0 then none else some i.toNat

/-- The offset of a struct or list pointer, counted from the word after it. -/
def pointerTarget (word : Nat) (w : UInt64) : Option Nat :=
  toNat? (Int.ofNat (word + 1) + signExtend 30 (shr64 w 2 &&& 0x3fffffff))

/-- The data size in words of a struct pointer or tag. -/
def wordDataWords (w : UInt64) : Nat :=
  (shr64 w 32 &&& 0xffff).toNat

def wordPtrCount (w : UInt64) : Nat :=
  (shr64 w 48 &&& 0xffff).toNat

/-- The segment and word that a far pointer names. -/
def farSegment (w : UInt64) : Nat :=
  (shr64 w 32 &&& 0xffffffff).toNat

def farWord (w : UInt64) : Nat :=
  (shr64 w 3 &&& 0x1fffffff).toNat

def resolveDirectPointer (msg : Message) (seg word : Nat) : Option ResolvedPointer :=
  let w := readWord msg seg word
  if w == 0 then none
  else if w &&& 3 == 3 then none
  else if w &&& 3 == 2 then none
  else
    (pointerTarget word w).map
      (fun t => { msg := msg, tagSeg := seg, tagWord := word, targetSeg := seg, targetWord := t })

def resolvePointer (p : AnyPointer) : Option ResolvedPointer :=
  let w := readWord p.msg p.seg p.word
  if w == 0 then none
  else if w &&& 3 != 2 then resolveDirectPointer p.msg p.seg p.word
  else
    let padSeg := farSegment w
    let padWord := farWord w
    if padSeg ≥ p.msg.segments.length then none
    else if shr64 w 2 &&& 1 == 1 then
      let padWordBits := readWord p.msg padSeg padWord
      if padWordBits &&& 3 != 2 then none
      else
        let targetSeg := farSegment padWordBits
        let targetWord := farWord padWordBits
        if targetSeg ≥ p.msg.segments.length then none
        else
          some { msg := p.msg, tagSeg := padSeg, tagWord := padWord + 1, targetSeg := targetSeg,
                 targetWord := targetWord }
    else resolveDirectPointer p.msg padSeg padWord

def resolveDirectPointerChecked (msg : Message) (seg word : Nat)
    : Except String (Option ResolvedPointer) := do
  let w ← readWordChecked msg seg word
  if w == 0 then return none
  else if w &&& 3 == 2 then throw "far pointer not allowed here"
  else if w &&& 3 == 3 then throw "capability pointer not allowed here"
  else
    match pointerTarget word w with
    | none => throw "pointer offset underflow"
    | some t =>
        if t < segmentWordCount msg seg then
          return some { msg := msg, tagSeg := seg, tagWord := word, targetSeg := seg,
                        targetWord := t }
        else throw "pointer target out of bounds"

def resolvePointerChecked (p : AnyPointer) : Except String (Option ResolvedPointer) := do
  let w ← readWordChecked p.msg p.seg p.word
  if w == 0 then return none
  else if w &&& 3 == 3 then throw "capability pointer used as data pointer"
  else if w &&& 3 != 2 then resolveDirectPointerChecked p.msg p.seg p.word
  else
    let padSeg := farSegment w
    let padWord := farWord w
    if padSeg ≥ p.msg.segments.length then throw "far pointer segment out of bounds"
    else if shr64 w 2 &&& 1 == 1 then
      let padWordBits ← readWordChecked p.msg padSeg padWord
      let targetSeg := farSegment padWordBits
      let targetWord := farWord padWordBits
      if padWordBits &&& 3 != 2 then throw "double-far landing pad invalid"
      else if targetSeg ≥ p.msg.segments.length then
        throw "double-far target segment out of bounds"
      else if targetWord ≥ segmentWordCount p.msg targetSeg then
        throw "double-far target out of bounds"
      else
        return some { msg := p.msg, tagSeg := padSeg, tagWord := padWord + 1,
                      targetSeg := targetSeg, targetWord := targetWord }
    else resolveDirectPointerChecked p.msg padSeg padWord

def decodeStructPtr (p : AnyPointer) : Option StructReader :=
  match resolvePointer p with
  | none => none
  | some r =>
      let w := readWord r.msg r.tagSeg r.tagWord
      if w &&& 3 != 0 then none
      else
        some { msg := r.msg, seg := r.targetSeg, dataOff := r.targetWord,
               dataWords := wordDataWords w, ptrOff := r.targetWord + wordDataWords w,
               ptrCount := wordPtrCount w }

def decodeStructPtrChecked (p : AnyPointer) : Except String StructReader := do
  match ← resolvePointerChecked p with
  | none => return emptyStruct p.msg p.seg
  | some r =>
      let w ← readWordChecked r.msg r.tagSeg r.tagWord
      if w &&& 3 != 0 then throw "struct pointer kind mismatch"
      else if r.targetWord + (wordDataWords w + wordPtrCount w)
          ≤ segmentWordCount r.msg r.targetSeg then
        return { msg := r.msg, seg := r.targetSeg, dataOff := r.targetWord,
                 dataWords := wordDataWords w, ptrOff := r.targetWord + wordDataWords w,
                 ptrCount := wordPtrCount w }
      else throw "struct out of bounds"

def readStruct (p : AnyPointer) : StructReader :=
  match decodeStructPtr p with
  | some s => s
  | none => emptyStruct p.msg p.seg

def readStructChecked (p : AnyPointer) : Except String StructReader :=
  decodeStructPtrChecked p

def getPointer (r : StructReader) (index : Nat) : AnyPointer where
  msg := r.msg
  seg := r.seg
  word := r.ptrOff + index

def isNullPointer (p : AnyPointer) : Bool :=
  readWord p.msg p.seg p.word == 0

-----------------------------------------------------------------------------------------
-- Scalar getters, plain and masked with a default
-----------------------------------------------------------------------------------------

def dataByteOff (r : StructReader) (byteOff : Nat) : Nat :=
  r.dataOff * 8 + byteOff

def getBool (r : StructReader) (bitOff : Nat) : Bool :=
  getBit r.msg r.seg (r.dataOff * 64 + bitOff)

def getBoolMasked (r : StructReader) (bitOff : Nat) (mask : Bool) : Bool :=
  if mask then !getBool r bitOff else getBool r bitOff

def getUInt8 (r : StructReader) (byteOff : Nat) : UInt8 :=
  readByte r.msg r.seg (dataByteOff r byteOff)

def getUInt8Masked (r : StructReader) (byteOff : Nat) (mask : UInt8) : UInt8 :=
  getUInt8 r byteOff ^^^ mask

def getUInt16 (r : StructReader) (byteOff : Nat) : UInt16 :=
  readUInt16 r.msg r.seg (dataByteOff r byteOff)

def getUInt16Masked (r : StructReader) (byteOff : Nat) (mask : UInt16) : UInt16 :=
  getUInt16 r byteOff ^^^ mask

def getUInt32 (r : StructReader) (byteOff : Nat) : UInt32 :=
  readUInt32 r.msg r.seg (dataByteOff r byteOff)

def getUInt32Masked (r : StructReader) (byteOff : Nat) (mask : UInt32) : UInt32 :=
  getUInt32 r byteOff ^^^ mask

def getUInt64 (r : StructReader) (byteOff : Nat) : UInt64 :=
  readUInt64 r.msg r.seg (dataByteOff r byteOff)

def getUInt64Masked (r : StructReader) (byteOff : Nat) (mask : UInt64) : UInt64 :=
  getUInt64 r byteOff ^^^ mask

/-- The signed value of the bits of each width. -/
def int8FromBits (u : UInt8) : Int8 :=
  Int8.ofInt (signExtend 8 u.toUInt64)

def int16FromBits (u : UInt16) : Int16 :=
  Int16.ofInt (signExtend 16 u.toUInt64)

def int32FromBits (u : UInt32) : Int32 :=
  Int32.ofInt (signExtend 32 u.toUInt64)

def twoPow64Int : Int := 18446744073709551616

def int64FromBits (u : UInt64) : Int64 :=
  let signBit := u &&& 0x8000000000000000 != 0
  Int64.ofInt (if signBit then Int.ofNat u.toNat - twoPow64Int else Int.ofNat u.toNat)

def getInt8 (r : StructReader) (byteOff : Nat) : Int8 :=
  int8FromBits (getUInt8 r byteOff)

def getInt8Masked (r : StructReader) (byteOff : Nat) (mask : UInt8) : Int8 :=
  int8FromBits (getUInt8 r byteOff ^^^ mask)

def getInt16 (r : StructReader) (byteOff : Nat) : Int16 :=
  int16FromBits (getUInt16 r byteOff)

def getInt16Masked (r : StructReader) (byteOff : Nat) (mask : UInt16) : Int16 :=
  int16FromBits (getUInt16 r byteOff ^^^ mask)

def getInt32 (r : StructReader) (byteOff : Nat) : Int32 :=
  int32FromBits (getUInt32 r byteOff)

def getInt32Masked (r : StructReader) (byteOff : Nat) (mask : UInt32) : Int32 :=
  int32FromBits (getUInt32 r byteOff ^^^ mask)

def getInt64 (r : StructReader) (byteOff : Nat) : Int64 :=
  int64FromBits (getUInt64 r byteOff)

def getInt64Masked (r : StructReader) (byteOff : Nat) (mask : UInt64) : Int64 :=
  int64FromBits (getUInt64 r byteOff ^^^ mask)

def elemSizeVoid : Nat := 0
def elemSizeBit : Nat := 1
def elemSizeByte : Nat := 2
def elemSizeTwoBytes : Nat := 3
def elemSizeFourBytes : Nat := 4
def elemSizeEightBytes : Nat := 5
def elemSizePointer : Nat := 6
def elemSizeInlineComposite : Nat := 7

def roundUpToWords (bytes : Nat) : Nat :=
  (bytes + 7) / 8

def roundUpToBytes (bits : Nat) : Nat :=
  (bits + 7) / 8

def listDataWords (elemSize elemCount : Nat) : Nat :=
  if elemSize = elemSizeVoid then 0
  else if elemSize = elemSizeBit then roundUpToWords (roundUpToBytes elemCount)
  else if elemSize = elemSizeByte then roundUpToWords elemCount
  else if elemSize = elemSizeTwoBytes then roundUpToWords (elemCount * 2)
  else if elemSize = elemSizeFourBytes then roundUpToWords (elemCount * 4)
  else if elemSize = elemSizeEightBytes then elemCount
  else if elemSize = elemSizePointer then elemCount
  else 0

def wordElemSize (w : UInt64) : Nat :=
  (shr64 w 32 &&& 7).toNat

def wordElemCount (w : UInt64) : Nat :=
  (shr64 w 35 &&& 0x1fffffff).toNat

/-- The element count of an inline-composite tag. -/
def tagElemCount (w : UInt64) : Nat :=
  (shr64 w 2 &&& 0x3fffffff).toNat

/-- The list after an inline-composite tag, which stands before the elements. -/
def inlineCompositeList (r : ResolvedPointer) (tag : UInt64) : ListPointer where
  msg := r.msg
  seg := r.targetSeg
  startWord := r.targetWord + 1
  elemSize := elemSizeInlineComposite
  elemCount := tagElemCount tag
  structDataWords := wordDataWords tag
  structPtrCount := wordPtrCount tag
  inlineComposite := true

def plainList (r : ResolvedPointer) (w : UInt64) : ListPointer where
  msg := r.msg
  seg := r.targetSeg
  startWord := r.targetWord
  elemSize := wordElemSize w
  elemCount := wordElemCount w
  structDataWords := 0
  structPtrCount := 0
  inlineComposite := false

def decodeListPtr (p : AnyPointer) : Option ListPointer :=
  match resolvePointer p with
  | none => none
  | some r =>
      let w := readWord r.msg r.tagSeg r.tagWord
      if w &&& 3 != 1 then none
      else if wordElemSize w = elemSizeInlineComposite then
        let tag := readWord r.msg r.targetSeg r.targetWord
        if tag &&& 3 != 0 then none else some (inlineCompositeList r tag)
      else some (plainList r w)

def decodeListPtrChecked (p : AnyPointer) : Except String (Option ListPointer) := do
  match ← resolvePointerChecked p with
  | none => return none
  | some r =>
      let w ← readWordChecked r.msg r.tagSeg r.tagWord
      if w &&& 3 != 1 then throw "list pointer kind mismatch"
      else if wordElemSize w = elemSizeInlineComposite then
        if r.targetWord + 1 + wordElemCount w > segmentWordCount r.msg r.targetSeg then
          throw "inline composite list out of bounds"
        else
          let tag ← readWordChecked r.msg r.targetSeg r.targetWord
          if tag &&& 3 != 0 then throw "inline composite tag not struct"
          else if tagElemCount tag * (wordDataWords tag + wordPtrCount tag) > wordElemCount w then
            throw "inline composite overrun"
          else return some (inlineCompositeList r tag)
      else if r.targetWord + listDataWords (wordElemSize w) (wordElemCount w)
          ≤ segmentWordCount r.msg r.targetSeg then
        return some (plainList r w)
      else throw "list out of bounds"

/-- The reader of one element of an inline-composite list. -/
def ListPointer.structReader (d : ListPointer) (i : Nat) : StructReader :=
  let elemWords := d.structDataWords + d.structPtrCount
  let base := if elemWords = 0 then d.startWord else d.startWord + i * elemWords
  { msg := d.msg, seg := d.seg, dataOff := base, dataWords := d.structDataWords,
    ptrOff := base + d.structDataWords, ptrCount := d.structPtrCount }

def readListStruct (p : AnyPointer) : List StructReader :=
  match decodeListPtr p with
  | some d => if d.inlineComposite then (List.range d.elemCount).map d.structReader else []
  | none => []

def readListStructChecked (p : AnyPointer) : Except String (List StructReader) := do
  match ← decodeListPtrChecked p with
  | none => return []
  | some d =>
      if d.inlineComposite then return (List.range d.elemCount).map d.structReader
      else throw "struct list not inline composite"

end Capnp
