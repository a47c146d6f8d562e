import Capnp.Runtime.Scalars

/-! The writers of texts, data and lists. Each initialises an object behind a pointer and fills
it, so that the only allocated word it changes is the pointer's.
-/

namespace Capnp

open ByteString MessageBuilder

-----------------------------------------------------------------------------------------
-- Writers
-----------------------------------------------------------------------------------------

def writeData (p : AnyPointerBuilder) (data : List UInt8) (st : MessageBuilder)
    : MessageBuilder :=
  let (lb, st) := initListPointer p elemSizeByte data.length st
  writeBytesAt lb.seg (lb.startWord * 8) data st

def writeText (p : AnyPointerBuilder) (text : String) : MessageBuilder → MessageBuilder :=
  writeData p (text.toUTF8.toList ++ [0])

/-- The elements' bytes, one element after the other. -/
def writeListBytes (p : AnyPointerBuilder) (elemSize : Nat) (vals : List (List UInt8))
    (st : MessageBuilder) : MessageBuilder :=
  let (lb, st) := initListPointer p elemSize vals.length st
  writeBytesAt lb.seg (lb.startWord * 8) vals.flatten st

def writeListUInt8 (p : AnyPointerBuilder) (vals : List UInt8) : MessageBuilder → MessageBuilder :=
  writeListBytes p elemSizeByte (vals.map (fun v => [v]))

def writeListUInt16 (p : AnyPointerBuilder) (vals : List UInt16)
    : MessageBuilder → MessageBuilder :=
  writeListBytes p elemSizeTwoBytes (vals.map uint16Le)

def writeListUInt32 (p : AnyPointerBuilder) (vals : List UInt32)
    : MessageBuilder → MessageBuilder :=
  writeListBytes p elemSizeFourBytes (vals.map uint32Le)

def writeListUInt64 (p : AnyPointerBuilder) (vals : List UInt64)
    : MessageBuilder → MessageBuilder :=
  writeListBytes p elemSizeEightBytes (vals.map wordBytes)

def writeListVoid (p : AnyPointerBuilder) (vals : List Unit) (st : MessageBuilder)
    : MessageBuilder :=
  (initListPointer p elemSizeVoid vals.length st).2

def writeListInt8 (p : AnyPointerBuilder) (vals : List Int8) : MessageBuilder → MessageBuilder :=
  writeListUInt8 p (vals.map Int8.toUInt8)

def writeListInt16 (p : AnyPointerBuilder) (vals : List Int16)
    : MessageBuilder → MessageBuilder :=
  writeListUInt16 p (vals.map Int16.toUInt16)

def writeListInt32 (p : AnyPointerBuilder) (vals : List Int32)
    : MessageBuilder → MessageBuilder :=
  writeListUInt32 p (vals.map Int32.toUInt32)

def writeListInt64 (p : AnyPointerBuilder) (vals : List Int64)
    : MessageBuilder → MessageBuilder :=
  writeListUInt64 p (vals.map Int64.toUInt64)

def writeListBool (p : AnyPointerBuilder) (vals : List Bool) (st : MessageBuilder)
    : MessageBuilder :=
  let (lb, st) := initListPointer p elemSizeBit vals.length st
  let baseBit := lb.startWord * 64
  (List.range vals.length).foldl
    (fun st i => setBitB lb.seg (baseBit + i) (vals.getD i false) st) st

def writeListFloat32 (p : AnyPointerBuilder) (vals : List Float)
    : MessageBuilder → MessageBuilder :=
  writeListUInt32 p (vals.map float32Bits)

def writeListFloat64 (p : AnyPointerBuilder) (vals : List Float)
    : MessageBuilder → MessageBuilder :=
  writeListUInt64 p (vals.map Float.toBits)

/-- The loop over the pointers of a list. -/
def writeListWith {α : Type} (write : AnyPointerBuilder → α → MessageBuilder → MessageBuilder)
    (default : α) (p : AnyPointerBuilder) (vals : List α) (st : MessageBuilder)
    : MessageBuilder :=
  let (lb, st) := initListPointer p elemSizePointer vals.length st
  let ptrs := listPointerBuilders lb
  (List.range vals.length).foldl
    (fun st i => write (ptrs.getD i { seg := 0, word := 0 }) (vals.getD i default) st) st

def writeListText : AnyPointerBuilder → List String → MessageBuilder → MessageBuilder :=
  writeListWith writeText ""

def writeListData : AnyPointerBuilder → List (List UInt8) → MessageBuilder → MessageBuilder :=
  writeListWith writeData []

def writeListCapability : AnyPointerBuilder → List UInt32 → MessageBuilder → MessageBuilder :=
  writeListWith writeCapability 0

-----------------------------------------------------------------------------------------
-- Footprints
-----------------------------------------------------------------------------------------

/-- Of the words allocated before, only the pointer's may change. -/
def WritesAt (p : AnyPointerBuilder) (before after : MessageBuilder) : Prop :=
  Writes (fun cell => cell = (p.seg, p.word)) before after

/-- The words of a segment from this one on. -/
def Behind (seg word : Nat) (cell : Nat × Nat) : Prop :=
  cell.1 = seg ∧ word ≤ cell.2

variable {p : AnyPointerBuilder} {st after : MessageBuilder}

/-- Filling a list changes nothing besides, wherever it was allocated. -/
theorem initListPointer_then (valid : st.Valid) (elemSize elemCount : Nat)
    (fill
      : Writes
          (Behind (initListPointer p elemSize elemCount st).1.seg
            (initListPointer p elemSize elemCount st).1.startWord)
          (initListPointer p elemSize elemCount st).2 after)
    : WritesAt p st after :=
  (initObject_places valid p (initListWords elemSize elemCount)
    (fun offset => encodeListPointer offset elemSize elemCount)).trans fill

/-- A new list changes one old word, its pointer's. -/
theorem initListPointer_writes (valid : st.Valid) (p : AnyPointerBuilder)
    (elemSize elemCount : Nat) : WritesAt p st (initListPointer p elemSize elemCount st).2 :=
  (initObject_places valid p (initListWords elemSize elemCount)
    (fun offset => encodeListPointer offset elemSize elemCount)).writes

/-- What is filled into a new struct changes no old word either. -/
theorem initStructPointer_then (valid : st.Valid) {dataWords ptrCount : Nat}
    (fill
      : Writes
          (Behind (initStructPointer p dataWords ptrCount st).1.seg
            (initStructPointer p dataWords ptrCount st).1.dataOff)
          (initStructPointer p dataWords ptrCount st).2 after)
    : WritesAt p st after :=
  (initObject_places valid p (dataWords + ptrCount)
    (fun offset => encodeStructPointer offset dataWords ptrCount)).trans fill

/-- A new struct changes one old word, its pointer's. -/
theorem initStructPointer_writes (valid : st.Valid) (p : AnyPointerBuilder)
    (dataWords ptrCount : Nat) : WritesAt p st (initStructPointer p dataWords ptrCount st).2 :=
  (initObject_places valid p (dataWords + ptrCount)
    (fun offset => encodeStructPointer offset dataWords ptrCount)).writes

/-- The tag stands in front of the elements. -/
theorem initStructListPointer_then (valid : st.Valid) {dataWords ptrCount elemCount : Nat}
    (fill
      : Writes
          (Behind (initStructListPointer p dataWords ptrCount elemCount st).1.seg
            (initStructListPointer p dataWords ptrCount elemCount st).1.startWord)
          (initStructListPointer p dataWords ptrCount elemCount st).2 after)
    : WritesAt p st after := by
  have places := initObject_places valid p (1 + elemCount * (dataWords + ptrCount))
    (fun offset => encodeListPointer offset elemSizeInlineComposite
      (elemCount * (dataWords + ptrCount)))
  have tagged := places.writeWordLE (encodeStructTag elemCount dataWords ptrCount)
  apply places.trans (tagged.trans fill ?_)
  intro cell _ behind
  exact ⟨behind.1, Nat.le_of_succ_le behind.2⟩

/-- A new list of structs keeps a builder valid. -/
theorem initStructListPointer_valid (valid : st.Valid) (p : AnyPointerBuilder)
    (dataWords ptrCount elemCount : Nat)
    : (initStructListPointer p dataWords ptrCount elemCount st).2.Valid :=
  ((initObject_places valid p (1 + elemCount * (dataWords + ptrCount))
    (fun offset => encodeListPointer offset elemSizeInlineComposite
      (elemCount * (dataWords + ptrCount)))).writeWordLE
    (encodeStructTag elemCount dataWords ptrCount)).valid

/-- Bytes are written behind where they start. -/
theorem writeBytesAt_behind (valid : st.Valid) (seg wordOff : Nat) (src : List UInt8)
    : Writes (Behind seg wordOff) st (writeBytesAt seg (wordOff * 8) src st) :=
  (writeBytesAt_writes valid seg wordOff src).widen (fun _ _ inside => ⟨inside.1, inside.2.1⟩)

/-- A bit is set behind the start of its list. -/
theorem setBitB_behind (valid : st.Valid) (seg wordOff i : Nat) (value : Bool)
    : Writes (Behind seg wordOff) st (setBitB seg (wordOff * 64 + i) value st) := by
  apply (modifySegment_writes valid seg ((wordOff * 64 + i) / 8) 1 _).widen
  intro cell _ inside
  exact ⟨inside.1, by omega⟩

/-- Data changes one old word, its pointer's. -/
theorem writeData_writes (valid : st.Valid) (p : AnyPointerBuilder) (data : List UInt8)
    : WritesAt p st (writeData p data st) :=
  initListPointer_then valid elemSizeByte data.length
    (writeBytesAt_behind (initListPointer_writes valid p elemSizeByte data.length).valid ..)

/-- A text changes one old word, its pointer's. -/
theorem writeText_writes (valid : st.Valid) (p : AnyPointerBuilder) (text : String)
    : WritesAt p st (writeText p text st) :=
  writeData_writes valid p _

/-- A capability is written into its pointer. -/
theorem writeCapability_writes (valid : st.Valid) (p : AnyPointerBuilder) (cap : UInt32)
    : WritesAt p st (writeCapability p cap st) :=
  writeWordLE_writes valid ..

/-- A list of scalars changes one old word, its pointer's. -/
theorem writeListBytes_writes (valid : st.Valid) (p : AnyPointerBuilder) (elemSize : Nat)
    (vals : List (List UInt8)) : WritesAt p st (writeListBytes p elemSize vals st) :=
  initListPointer_then valid elemSize vals.length
    (writeBytesAt_behind (initListPointer_writes valid p elemSize vals.length).valid ..)

/-- So does a list of booleans. -/
theorem writeListBool_writes (valid : st.Valid) (p : AnyPointerBuilder) (vals : List Bool)
    : WritesAt p st (writeListBool p vals st) := by
  have start := initListPointer_writes valid p elemSizeBit vals.length
  apply initListPointer_then valid elemSizeBit vals.length
  apply Writes.foldl _ start.valid
  exact fun i _ _ valid => setBitB_behind valid ..

/-- So does a list of pointers whose values do. -/
theorem writeListWith_writes {α : Type}
    {write : AnyPointerBuilder → α → MessageBuilder → MessageBuilder}
    (each : ∀ p val {st : MessageBuilder}, st.Valid → WritesAt p st (write p val st))
    (default : α) (valid : st.Valid) (p : AnyPointerBuilder) (vals : List α)
    : WritesAt p st (writeListWith write default p vals st) := by
  have start := initListPointer_writes valid p elemSizePointer vals.length
  apply initListPointer_then valid elemSizePointer vals.length
  apply Writes.foldl _ start.valid
  intro i inside st valid
  rw [listPointerBuilders_inside rfl rfl (List.mem_range.mp inside)]
  apply (each _ _ valid).widen
  rintro cell _ rfl
  exact ⟨rfl, Nat.le_add_right ..⟩

end Capnp
