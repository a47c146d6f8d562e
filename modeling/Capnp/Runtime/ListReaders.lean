import Capnp.Runtime.CheckedViews
import Capnp.Runtime.ListWriters

/-! The readers of lists. A list reader has the elements of one kind of list that a pointer
leads to, and none when it leads to anything else, where the checked reader fails. What the
checked one accepts lies in its segment and is what the other one reads.
-/

namespace Capnp

open ByteString

/-- A list by its size and a function for its elements. -/
structure ListReader (α : Type) where
  size : Nat
  get : (i : Nat) → i < size → α

namespace ListReader

variable {α β : Type}

def empty : ListReader α where
  size := 0
  get := fun i inside => absurd inside (Nat.not_lt_zero i)

def map (f : α → β) (r : ListReader α) : ListReader β where
  size := r.size
  get := fun i inside => f (r.get i inside)

def toArray (r : ListReader α) : List α :=
  List.ofFn (fun i : Fin r.size => r.get i.val i.isLt)

end ListReader

-----------------------------------------------------------------------------------------
-- Readers
-----------------------------------------------------------------------------------------

/-- The readers of all but struct lists differ in the element size and in what an element is. -/
def readListReader {α : Type} (elemSize : Nat) (element : ListPointer → Nat → α) (p : AnyPointer)
    : ListReader α :=
  match decodeListPtr p with
  | some d =>
      if d.inlineComposite || d.elemSize != elemSize then .empty
      else { size := d.elemCount, get := fun i _ => element d i }
  | none => .empty

def readListVoidReader : AnyPointer → ListReader Unit :=
  readListReader elemSizeVoid (fun _ _ => ())

def readListBoolReader : AnyPointer → ListReader Bool :=
  readListReader elemSizeBit (fun d i => getBit d.msg d.seg (d.startWord * 64 + i))

def readListUInt8Reader : AnyPointer → ListReader UInt8 :=
  readListReader elemSizeByte (fun d i => readByte d.msg d.seg (d.startWord * 8 + i))

def readListUInt16Reader : AnyPointer → ListReader UInt16 :=
  readListReader elemSizeTwoBytes (fun d i => readUInt16 d.msg d.seg (d.startWord * 8 + i * 2))

def readListUInt32Reader : AnyPointer → ListReader UInt32 :=
  readListReader elemSizeFourBytes (fun d i => readUInt32 d.msg d.seg (d.startWord * 8 + i * 4))

def readListUInt64Reader : AnyPointer → ListReader UInt64 :=
  readListReader elemSizeEightBytes (fun d i => readUInt64 d.msg d.seg (d.startWord * 8 + i * 8))

def readListInt8Reader (p : AnyPointer) : ListReader Int8 :=
  .map int8FromBits (readListUInt8Reader p)

def readListInt16Reader (p : AnyPointer) : ListReader Int16 :=
  .map int16FromBits (readListUInt16Reader p)

def readListInt32Reader (p : AnyPointer) : ListReader Int32 :=
  .map int32FromBits (readListUInt32Reader p)

def readListInt64Reader (p : AnyPointer) : ListReader Int64 :=
  .map int64FromBits (readListUInt64Reader p)

def readListFloat32Reader (p : AnyPointer) : ListReader Float :=
  .map float32FromBits (readListUInt32Reader p)

def readListFloat64Reader (p : AnyPointer) : ListReader Float :=
  .map Float.ofBits (readListUInt64Reader p)

def readListPointerReader : AnyPointer → ListReader AnyPointer :=
  readListReader elemSizePointer
    (fun d i => { msg := d.msg, seg := d.seg, word := d.startWord + i })

def readListTextReader (p : AnyPointer) : ListReader String :=
  .map readText (readListPointerReader p)

def readListDataReader (p : AnyPointer) : ListReader (List UInt8) :=
  .map readData (readListPointerReader p)

def readListCapabilityReader (p : AnyPointer) : ListReader UInt32 :=
  .map readCapability (readListPointerReader p)

def readListVoid (p : AnyPointer) : List Unit := (readListVoidReader p).toArray

def readListBool (p : AnyPointer) : List Bool := (readListBoolReader p).toArray

def readListUInt8 (p : AnyPointer) : List UInt8 := (readListUInt8Reader p).toArray

def readListUInt16 (p : AnyPointer) : List UInt16 := (readListUInt16Reader p).toArray

def readListUInt32 (p : AnyPointer) : List UInt32 := (readListUInt32Reader p).toArray

def readListUInt64 (p : AnyPointer) : List UInt64 := (readListUInt64Reader p).toArray

def readListInt8 (p : AnyPointer) : List Int8 := (readListInt8Reader p).toArray

def readListInt16 (p : AnyPointer) : List Int16 := (readListInt16Reader p).toArray

def readListInt32 (p : AnyPointer) : List Int32 := (readListInt32Reader p).toArray

def readListInt64 (p : AnyPointer) : List Int64 := (readListInt64Reader p).toArray

def readListFloat32 (p : AnyPointer) : List Float := (readListFloat32Reader p).toArray

def readListFloat64 (p : AnyPointer) : List Float := (readListFloat64Reader p).toArray

def readListPointer (p : AnyPointer) : List AnyPointer := (readListPointerReader p).toArray

def readListText (p : AnyPointer) : List String := (readListTextReader p).toArray

def readListData (p : AnyPointer) : List (List UInt8) := (readListDataReader p).toArray

def readListCapability (p : AnyPointer) : List UInt32 := (readListCapabilityReader p).toArray

-----------------------------------------------------------------------------------------
-- Checked readers
-----------------------------------------------------------------------------------------

def readListCheckedReader {α : Type} (elemSize : Nat) (mismatch : String)
    (element : ListPointer → Nat → α) (p : AnyPointer) : Except String (ListReader α) := do
  match ← decodeListPtrChecked p with
  | none => return .empty
  | some d =>
      if d.inlineComposite || d.elemSize != elemSize then throw mismatch
      else return { size := d.elemCount, get := fun i _ => element d i }

def readListVoidCheckedReader : AnyPointer → Except String (ListReader Unit) :=
  readListCheckedReader elemSizeVoid "void list kind mismatch" (fun _ _ => ())

def readListBoolCheckedReader : AnyPointer → Except String (ListReader Bool) :=
  readListCheckedReader elemSizeBit "bool list kind mismatch"
    (fun d i => getBit d.msg d.seg (d.startWord * 64 + i))

def readListUInt8CheckedReader : AnyPointer → Except String (ListReader UInt8) :=
  readListCheckedReader elemSizeByte "uint8 list kind mismatch"
    (fun d i => readByte d.msg d.seg (d.startWord * 8 + i))

def readListUInt16CheckedReader : AnyPointer → Except String (ListReader UInt16) :=
  readListCheckedReader elemSizeTwoBytes "uint16 list kind mismatch"
    (fun d i => readUInt16 d.msg d.seg (d.startWord * 8 + i * 2))

def readListUInt32CheckedReader : AnyPointer → Except String (ListReader UInt32) :=
  readListCheckedReader elemSizeFourBytes "uint32 list kind mismatch"
    (fun d i => readUInt32 d.msg d.seg (d.startWord * 8 + i * 4))

def readListUInt64CheckedReader : AnyPointer → Except String (ListReader UInt64) :=
  readListCheckedReader elemSizeEightBytes "uint64 list kind mismatch"
    (fun d i => readUInt64 d.msg d.seg (d.startWord * 8 + i * 8))

def readListInt8CheckedReader (p : AnyPointer) : Except String (ListReader Int8) := do
  let r ← readListUInt8CheckedReader p
  return .map int8FromBits r

def readListInt16CheckedReader (p : AnyPointer) : Except String (ListReader Int16) := do
  let r ← readListUInt16CheckedReader p
  return .map int16FromBits r

def readListInt32CheckedReader (p : AnyPointer) : Except String (ListReader Int32) := do
  let r ← readListUInt32CheckedReader p
  return .map int32FromBits r

def readListInt64CheckedReader (p : AnyPointer) : Except String (ListReader Int64) := do
  let r ← readListUInt64CheckedReader p
  return .map int64FromBits r

def readListFloat32CheckedReader (p : AnyPointer) : Except String (ListReader Float) := do
  let r ← readListUInt32CheckedReader p
  return .map float32FromBits r

def readListFloat64CheckedReader (p : AnyPointer) : Except String (ListReader Float) := do
  let r ← readListUInt64CheckedReader p
  return .map Float.ofBits r

def readListPointerCheckedReader : AnyPointer → Except String (ListReader AnyPointer) :=
  readListCheckedReader elemSizePointer "pointer list kind mismatch"
    (fun d i => { msg := d.msg, seg := d.seg, word := d.startWord + i })

/-- The checked readers of arrays, each from the checked list reader. -/
def readListChecked {α : Type} (reader : AnyPointer → Except String (ListReader α))
    (p : AnyPointer) : Except String (List α) := do
  let r ← reader p
  return r.toArray

def readListVoidChecked := readListChecked readListVoidCheckedReader

def readListBoolChecked := readListChecked readListBoolCheckedReader

def readListUInt8Checked := readListChecked readListUInt8CheckedReader

def readListUInt16Checked := readListChecked readListUInt16CheckedReader

def readListUInt32Checked := readListChecked readListUInt32CheckedReader

def readListUInt64Checked := readListChecked readListUInt64CheckedReader

def readListInt8Checked := readListChecked readListInt8CheckedReader

def readListInt16Checked := readListChecked readListInt16CheckedReader

def readListInt32Checked := readListChecked readListInt32CheckedReader

def readListInt64Checked := readListChecked readListInt64CheckedReader

def readListFloat32Checked := readListChecked readListFloat32CheckedReader

def readListFloat64Checked := readListChecked readListFloat64CheckedReader

def readListPointerChecked := readListChecked readListPointerCheckedReader

def readCapabilityChecked (p : AnyPointer) : Except String UInt32 := do
  let w ← readWordChecked p.msg p.seg p.word
  if w == 0 then return 0
  else if w &&& 0xffffffff == 3 then return (shr64 w 32).toUInt32
  else throw "capability pointer kind mismatch"

-----------------------------------------------------------------------------------------
-- The readers as one family
-----------------------------------------------------------------------------------------

/-- The list as the data of a struct, whose getters read its elements. -/
def ListPointer.asStruct (d : ListPointer) : StructReader where
  msg := d.msg
  seg := d.seg
  dataOff := d.startWord
  dataWords := listDataWords d.elemSize d.elemCount
  ptrOff := d.startWord
  ptrCount := 0

/-- Where an element is in the data of its list, as an offset of the scalar's accessors. -/
def Scalar.elementOffset (s : Scalar) (i : Nat) : Nat :=
  match s with
  | .bool | .int8 | .uint8 => i
  | .int16 | .uint16 => i * 2
  | .int32 | .uint32 | .float32 => i * 4
  | .int64 | .uint64 | .float64 => i * 8

/-- The runtime has a reader and a checked reader of lists of each kind. -/
inductive ListKind where
  | void
  | scalar (s : Scalar)
  | pointer

namespace ListKind

def elemSize : ListKind → Nat
  | .void => elemSizeVoid
  | .scalar .bool => elemSizeBit
  | .scalar .int8 | .scalar .uint8 => elemSizeByte
  | .scalar .int16 | .scalar .uint16 => elemSizeTwoBytes
  | .scalar .int32 | .scalar .uint32 | .scalar .float32 => elemSizeFourBytes
  | .scalar .int64 | .scalar .uint64 | .scalar .float64 => elemSizeEightBytes
  | .pointer => elemSizePointer

/-- The number of bits of an element. -/
def width : ListKind → Nat
  | .void => 0
  | .scalar s => s.width
  | .pointer => 64

def Elem : ListKind → Type
  | .void => Unit
  | .scalar s => s.Value
  | .pointer => AnyPointer

def mismatch : ListKind → String
  | .void => "void list kind mismatch"
  | .scalar .bool => "bool list kind mismatch"
  | .scalar .int8 | .scalar .uint8 => "uint8 list kind mismatch"
  | .scalar .int16 | .scalar .uint16 => "uint16 list kind mismatch"
  | .scalar .int32 | .scalar .uint32 | .scalar .float32 => "uint32 list kind mismatch"
  | .scalar .int64 | .scalar .uint64 | .scalar .float64 => "uint64 list kind mismatch"
  | .pointer => "pointer list kind mismatch"

def read : (k : ListKind) → AnyPointer → List k.Elem
  | .void => readListVoid
  | .scalar .bool => readListBool
  | .scalar .int8 => readListInt8
  | .scalar .uint8 => readListUInt8
  | .scalar .int16 => readListInt16
  | .scalar .uint16 => readListUInt16
  | .scalar .int32 => readListInt32
  | .scalar .uint32 => readListUInt32
  | .scalar .int64 => readListInt64
  | .scalar .uint64 => readListUInt64
  | .scalar .float32 => readListFloat32
  | .scalar .float64 => readListFloat64
  | .pointer => readListPointer

def readChecked : (k : ListKind) → AnyPointer → Except String (List k.Elem)
  | .void => readListVoidChecked
  | .scalar .bool => readListBoolChecked
  | .scalar .int8 => readListInt8Checked
  | .scalar .uint8 => readListUInt8Checked
  | .scalar .int16 => readListInt16Checked
  | .scalar .uint16 => readListUInt16Checked
  | .scalar .int32 => readListInt32Checked
  | .scalar .uint32 => readListUInt32Checked
  | .scalar .int64 => readListInt64Checked
  | .scalar .uint64 => readListUInt64Checked
  | .scalar .float32 => readListFloat32Checked
  | .scalar .float64 => readListFloat64Checked
  | .pointer => readListPointerChecked

def element : (k : ListKind) → ListPointer → Nat → k.Elem
  | .void => fun _ _ => ()
  | .scalar s => fun d i => s.get d.asStruct (s.elementOffset i) none
  | .pointer => ListPointer.elementPointer

/-- A list of another kind. -/
def Mismatches (k : ListKind) (d : ListPointer) : Prop :=
  (d.inlineComposite || d.elemSize != k.elemSize) = true

instance (k : ListKind) (d : ListPointer) : Decidable (k.Mismatches d) :=
  inferInstanceAs (Decidable (_ = true))

/-- The elements of a list of the kind, and none of any other. -/
def elements (k : ListKind) (d : ListPointer) : List k.Elem :=
  if k.Mismatches d then [] else (List.range d.elemCount).map (k.element d)

end ListKind

section Arrays

variable {α β : Type}

/-- The elements of a mapped list. -/
theorem ListReader.toArray_map_indexed (f : α → β) (size : Nat) (element : Nat → α)
    : (ListReader.map f { size := size, get := fun i _ => element i }).toArray
      = (List.range size).map (fun i => f (element i)) := by
  apply List.ext_getElem
  · simp [ListReader.toArray, ListReader.map]
  · intro i left right
    simp [ListReader.toArray, ListReader.map]

variable {k : ListKind} {p : AnyPointer} {f : α → k.Elem} {item : ListPointer → Nat → α}

/-- A reader that makes the elements of the kind out of those of a list reader. -/
theorem read_eq_of_map (reads : k.read p = ((readListReader k.elemSize item p).map f).toArray)
    (same : ∀ d i, f (item d i) = k.element d i)
    : k.read p
      = match decodeListPtr p with
        | some d => k.elements d
        | none => [] := by
  rw [reads, readListReader]
  cases decodeListPtr p with
  | none => rfl
  | some d =>
      dsimp only
      rw [ListKind.elements]
      by_cases other : k.Mismatches d
      · rw [if_pos other, if_pos (show (_ || _) = true from other)]
        rfl
      · rw [if_neg other, if_neg (show ¬ (_ || _) = true from other),
          ListReader.toArray_map_indexed]
        exact List.map_congr_left (fun i _ => same d i)

/-- A checked reader that maps another one. -/
theorem readChecked_eq_of_map
    (reads
      : k.readChecked p
        = (do
            let r ← readListCheckedReader k.elemSize k.mismatch item p
            return (r.map f).toArray))
    (same : ∀ d i, f (item d i) = k.element d i)
    : k.readChecked p
      = match decodeListPtrChecked p with
        | .error message => .error message
        | .ok none => .ok []
        | .ok (some d) => if k.Mismatches d then .error k.mismatch else .ok (k.elements d) := by
  rw [reads, readListCheckedReader]
  cases decodeListPtrChecked p with
  | error message => rfl
  | ok list =>
      cases list with
      | none => rfl
      | some d =>
          simp only [bind, Except.bind]
          rw [ListKind.elements]
          by_cases other : k.Mismatches d
          · rw [if_pos other, if_pos (show (_ || _) = true from other)]
            rfl
          · rw [if_neg other, if_neg other, if_neg (show ¬ (_ || _) = true from other)]
            simp only [pure, Except.pure, ListReader.toArray_map_indexed]
            exact congrArg _ (List.map_congr_left (fun i _ => same d i))

end Arrays

namespace ListKind

/-- A reader has the elements of a list of its kind. -/
theorem read_eq (k : ListKind) (p : AnyPointer)
    : k.read p
      = match decodeListPtr p with
        | some d => k.elements d
        | none => [] := by
  cases k with
  | void => exact read_eq_of_map (f := id) rfl (fun _ _ => rfl)
  | pointer => exact read_eq_of_map (f := id) rfl (fun _ _ => rfl)
  | scalar s =>
      cases s with
      | int8 => exact read_eq_of_map (f := int8FromBits) rfl (fun _ _ => rfl)
      | int16 => exact read_eq_of_map (f := int16FromBits) rfl (fun _ _ => rfl)
      | int32 => exact read_eq_of_map (f := int32FromBits) rfl (fun _ _ => rfl)
      | int64 => exact read_eq_of_map (f := int64FromBits) rfl (fun _ _ => rfl)
      | float32 => exact read_eq_of_map (f := float32FromBits) rfl (fun _ _ => rfl)
      | float64 => exact read_eq_of_map (f := Float.ofBits) rfl (fun _ _ => rfl)
      | _ => exact read_eq_of_map (f := id) rfl (fun _ _ => rfl)

/-- The checked reader makes the same elements out of a checked list reader. -/
theorem bind_map_pure {α β γ : Type} (read : Except String α) (f : α → β) (g : β → γ)
    : (do
        let r ← (do
          let r ← read
          return f r)
        return g r)
      = (do
          let r ← read
          return g (f r)) := by
  cases read <;> rfl

/-- A checked reader fails where the list does, and on a list of another kind. -/
theorem readChecked_eq (k : ListKind) (p : AnyPointer)
    : k.readChecked p
      = match decodeListPtrChecked p with
        | .error message => .error message
        | .ok none => .ok []
        | .ok (some d) => if k.Mismatches d then .error k.mismatch else .ok (k.elements d) := by
  cases k with
  | void => exact readChecked_eq_of_map (f := id) rfl (fun _ _ => rfl)
  | pointer => exact readChecked_eq_of_map (f := id) rfl (fun _ _ => rfl)
  | scalar s =>
      cases s with
      | int8 => exact readChecked_eq_of_map (f := int8FromBits) (bind_map_pure ..) (fun _ _ => rfl)
      | int16 =>
          exact readChecked_eq_of_map (f := int16FromBits) (bind_map_pure ..) (fun _ _ => rfl)
      | int32 =>
          exact readChecked_eq_of_map (f := int32FromBits) (bind_map_pure ..) (fun _ _ => rfl)
      | int64 =>
          exact readChecked_eq_of_map (f := int64FromBits) (bind_map_pure ..) (fun _ _ => rfl)
      | float32 =>
          exact readChecked_eq_of_map (f := float32FromBits) (bind_map_pure ..) (fun _ _ => rfl)
      | float64 =>
          exact readChecked_eq_of_map (f := Float.ofBits) (bind_map_pure ..) (fun _ _ => rfl)
      | _ => exact readChecked_eq_of_map (f := id) rfl (fun _ _ => rfl)

end ListKind

end Capnp
