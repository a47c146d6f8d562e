import Capnp.Plugin.ScalarAccessors
import Capnp.Runtime.ListWriters

/-! The generated operations of a struct's builder. Each branch of the generator over a field's
type emits operations of its own, and each of them by itself the write of the discriminant.
-/

namespace Capnp.Plugin

open MessageBuilder

-----------------------------------------------------------------------------------------
-- Types and values
-----------------------------------------------------------------------------------------

/-- The element types of a list. -/
inductive ListElement where
  | slot (type : SlotType)
  | text
  | data
  | struct (dataWordCount pointerCount : UInt16)
  | list (element : ListElement)
  | interface
  | anyPointer

/-- The types of the pointer section. -/
inductive PointerType where
  | text
  | data
  | struct (dataWordCount pointerCount : UInt16)
  | list (element : ListElement)
  | interface
  | anyPointer

def listContainsStruct : ListElement → Bool
  | .struct _ _ => true
  | .list element => listContainsStruct element
  | _ => false

/-- The types whose fields have a `clear`; a capability has none. -/
def isPointerType : PointerType → Bool
  | .text | .data | .struct _ _ | .list _ | .anyPointer => true
  | .interface => false

mutual

/-- The values that a list is written from, by the branches of `emitListWrite`. -/
inductive ListValue : (fromReaderValues : Bool) → ListElement → Type where
  | slots {flag : Bool} {type : SlotType} (vals : List type.Value) : ListValue flag (.slot type)
  | texts {flag : Bool} (vals : List String) : ListValue flag .text
  | datas {flag : Bool} (vals : List (List UInt8)) : ListValue flag .data
  | readers {dataWordCount pointerCount : UInt16} (vals : List StructReader)
    : ListValue true (.struct dataWordCount pointerCount)
  | structs {dataWordCount pointerCount : UInt16} (size : Nat) (vals : Fin size → StructValue)
    : ListValue false (.struct dataWordCount pointerCount)
  | capabilities {flag : Bool} (vals : List UInt32) : ListValue flag .interface
  | anyPointers {flag : Bool} (vals : List AnyPointer) : ListValue flag .anyPointer
  | lists {flag : Bool} {element : ListElement} (size : Nat)
      (vals : Fin size → ListValue flag element)
    : ListValue flag (.list element)

/-- A value of a generated struct type: a reader where the struct is recursive, else what
`setFromValue` sets in turn.
-/
inductive StructValue : Type where
  | ofReader (reader : StructReader)
  | ofFields (count : Nat) (fields : Fin count → FieldValue)

/-- What `emitFieldSet` sets a field to. -/
inductive FieldValue : Type where
  | slot (type : SlotType) (offset : UInt32) (defaultValue : type.Default)
      (discriminant : Option DiscriminantWrite) (v : type.Value)
  | text (offset : UInt32) (discriminant : Option DiscriminantWrite) (v : String)
  | data (offset : UInt32) (discriminant : Option DiscriminantWrite) (v : List UInt8)
  | struct (dataWordCount pointerCount : UInt16) (offset : UInt32)
      (discriminant : Option DiscriminantWrite) (v : StructValue)
  | list {flag : Bool} {element : ListElement} (offset : UInt32)
      (discriminant : Option DiscriminantWrite) (v : ListValue flag element)
  | interface (offset : UInt32) (discriminant : Option DiscriminantWrite) (v : UInt32)
  | anyPointer (offset : UInt32) (discriminant : Option DiscriminantWrite) (v : AnyPointer)
  | group (discriminant : Option DiscriminantWrite) (v : StructValue)

end

-----------------------------------------------------------------------------------------
-- Emitted writes
-----------------------------------------------------------------------------------------

/-- The line that operations on union members start with. -/
def writeDiscriminant (discriminant : Option DiscriminantWrite) (b : StructBuilder)
    (st : MessageBuilder) : MessageBuilder :=
  match discriminant with
  | none => st
  | some discriminant => discriminant.run b st

def writeListSlots (p : AnyPointerBuilder) (type : SlotType) (vals : List type.Value)
    : MessageBuilder → MessageBuilder :=
  match type with
  | .void => writeListVoid p vals
  | .scalar .bool => writeListBool p vals
  | .scalar .int8 => writeListInt8 p vals
  | .scalar .int16 => writeListInt16 p vals
  | .scalar .int32 => writeListInt32 p vals
  | .scalar .int64 => writeListInt64 p vals
  | .scalar .uint8 => writeListUInt8 p vals
  | .scalar .uint16 => writeListUInt16 p vals
  | .scalar .uint32 => writeListUInt32 p vals
  | .scalar .uint64 => writeListUInt64 p vals
  | .scalar .float32 => writeListFloat32 p vals
  | .scalar .float64 => writeListFloat64 p vals
  | .enum _ => writeListUInt16 p (vals.map EnumValue.toUInt16)

def emptySb : StructBuilder where
  seg := 0
  dataOff := 0
  dataWords := 0
  ptrOff := 0
  ptrCount := 0

/-- Steps one after the other; a copy that runs out of fuel ends them. -/
def runAll (steps : List (MessageBuilder → Option MessageBuilder)) (st : MessageBuilder)
    : Option MessageBuilder :=
  steps.foldlM (fun st step => step st) st

/-- A list of structs, each element filled by its own step. -/
def writeStructs (p : AnyPointerBuilder) (dataWordCount pointerCount : UInt16) (size : Nat)
    (fill : Fin size → StructBuilder → MessageBuilder → Option MessageBuilder)
    (st : MessageBuilder) : Option MessageBuilder :=
  let (lb, st) :=
    initStructListPointer p dataWordCount.toNat pointerCount.toNat size st
  let builders := listStructBuilders lb
  runAll (List.ofFn (fun i => fill i (builders.getD i emptySb))) st

/-- A list of pointers, each written by its own step. -/
def writePointers (p : AnyPointerBuilder) (size : Nat)
    (write : Fin size → AnyPointerBuilder → MessageBuilder → Option MessageBuilder)
    (st : MessageBuilder) : Option MessageBuilder :=
  let (ptrs, st) := writeListPointer p size st
  runAll (List.ofFn (fun i => write i (ptrs.getD i { seg := 0, word := 0 }))) st

mutual

def emitListWrite (fuel : Nat) {flag : Bool} {element : ListElement} (p : AnyPointerBuilder)
    : ListValue flag element → MessageBuilder → Option MessageBuilder
  | @ListValue.slots _ type vals => fun st => some (writeListSlots p type vals st)
  | .texts vals => fun st => some (writeListText p vals st)
  | .datas vals => fun st => some (writeListData p vals st)
  | @ListValue.readers dataWordCount pointerCount vals =>
      writeStructs p dataWordCount pointerCount vals.length
        (fun i sb => copyStruct fuel sb (vals.get i))
  | @ListValue.structs dataWordCount pointerCount size vals =>
      writeStructs p dataWordCount pointerCount size (fun i sb => setFromValue fuel sb (vals i))
  | .capabilities vals => fun st => some (writeListCapability p vals st)
  | .anyPointers vals =>
      writePointers p vals.length (fun i p => copyAnyPointer fuel p (vals.get i))
  | .lists size vals => writePointers p size (fun i p => emitListWrite fuel p (vals i))

def setFromValue (fuel : Nat) (b : StructBuilder)
    : StructValue → MessageBuilder → Option MessageBuilder
  | .ofReader reader => copyStruct fuel b reader
  | .ofFields _ fields => runAll (List.ofFn (fun i => emitFieldSet fuel b (fields i)))

def emitFieldSet (fuel : Nat) (b : StructBuilder)
    : FieldValue → MessageBuilder → Option MessageBuilder
  | .slot type offset defaultValue discriminant v => fun st =>
      some ((genSetter type offset defaultValue discriminant).run b v st)
  | .text offset discriminant v => fun st =>
      some (writeText (getPointerBuilder b offset.toNat) v (writeDiscriminant discriminant b st))
  | .data offset discriminant v => fun st =>
      some (writeData (getPointerBuilder b offset.toNat) v (writeDiscriminant discriminant b st))
  | .struct dataWordCount pointerCount offset discriminant v => fun st =>
      let (sb, st) :=
        initStructPointer (getPointerBuilder b offset.toNat) dataWordCount.toNat
          pointerCount.toNat (writeDiscriminant discriminant b st)
      setFromValue fuel sb v st
  | .list offset discriminant v => fun st =>
      emitListWrite fuel (getPointerBuilder b offset.toNat) v (writeDiscriminant discriminant b st)
  | .interface offset discriminant v => fun st =>
      some (writeCapability (getPointerBuilder b offset.toNat) v
        (writeDiscriminant discriminant b st))
  | .anyPointer offset discriminant v => fun st =>
      copyAnyPointer fuel (getPointerBuilder b offset.toNat) v
        (writeDiscriminant discriminant b st)
  | .group discriminant v => fun st =>
      setFromValue fuel b v (writeDiscriminant discriminant b st)

end

-----------------------------------------------------------------------------------------
-- Operations
-----------------------------------------------------------------------------------------

/-- The types of fields, with where they lie. -/
inductive FieldType where
  | group
  | slot (type : SlotType) (offset : UInt32) (defaultValue : type.Default)
  | pointer (type : PointerType) (offset : UInt32)

/-- What an operation returns. -/
inductive Handed where
  | unit
  | struct (sb : StructBuilder)
  | structs (sbs : List StructBuilder)
  | list (lb : ListBuilder)
  | pointer (p : AnyPointerBuilder)
  | pointers (ps : List AnyPointerBuilder)

/-- The operations that are generated for a field, with their arguments. -/
inductive Operation : FieldType → Type where
  | getGroup : Operation .group
  | set {type : SlotType} {offset : UInt32} {defaultValue : type.Default} (v : type.Value)
    : Operation (.slot type offset defaultValue)
  | clear {type : PointerType} {offset : UInt32} (pointer : isPointerType type = true)
    : Operation (.pointer type offset)
  | setText {offset : UInt32} (v : String) : Operation (.pointer .text offset)
  | setData {offset : UInt32} (v : List UInt8) : Operation (.pointer .data offset)
  | initStruct {dataWordCount pointerCount : UInt16} {offset : UInt32}
    : Operation (.pointer (.struct dataWordCount pointerCount) offset)
  | initList {element : ListElement} {offset : UInt32} (n : Nat)
    : Operation (.pointer (.list element) offset)
  | setList {element : ListElement} {offset : UInt32} (v : ListValue false element)
    : Operation (.pointer (.list element) offset)
  | setListFromReaders {element : ListElement} {offset : UInt32}
      (structs : listContainsStruct element = true) (v : ListValue true element)
    : Operation (.pointer (.list element) offset)
  | getPointer {offset : UInt32} : Operation (.pointer .anyPointer offset)
  | setInterface {offset : UInt32} (v : UInt32) : Operation (.pointer .interface offset)

def SlotType.elemSize : SlotType → Nat
  | .void => elemSizeVoid
  | .scalar .bool => elemSizeBit
  | .scalar .int8 | .scalar .uint8 => elemSizeByte
  | .scalar .int16 | .scalar .uint16 | .enum _ => elemSizeTwoBytes
  | .scalar .int32 | .scalar .uint32 | .scalar .float32 => elemSizeFourBytes
  | .scalar .int64 | .scalar .uint64 | .scalar .float64 => elemSizeEightBytes

/-- The call that an initialiser of a list makes. -/
def emitListInit (p : AnyPointerBuilder) (element : ListElement) (n : Nat) (st : MessageBuilder)
    : Handed × MessageBuilder :=
  match element with
  | .struct dataWordCount pointerCount =>
      let (lb, st) := initStructListPointer p dataWordCount.toNat pointerCount.toNat n st
      (.structs (listStructBuilders lb), st)
  | .list _ | .anyPointer | .interface | .text | .data =>
      let (ptrs, st) := writeListPointer p n st
      (.pointers ptrs, st)
  | .slot type =>
      let (lb, st) := initListPointer p type.elemSize n st
      (.list lb, st)

/-- The body of an operation on `b`; only the accessors and `clear` write no discriminant. -/
def Operation.run (fuel : Nat) (discriminant : Option DiscriminantWrite) (b : StructBuilder)
    {type : FieldType} (operation : Operation type) (st : MessageBuilder)
    : Option (Handed × MessageBuilder) :=
  match type, operation with
  | .group, .getGroup => some (.struct b, st)
  | .slot type offset defaultValue, .set v =>
      some (.unit, (genSetter type offset defaultValue discriminant).run b v st)
  | .pointer _ offset, .clear _ =>
      some (.unit, clearPointer (getPointerBuilder b offset.toNat) st)
  | .pointer .text offset, .setText v =>
      let st := writeDiscriminant discriminant b st
      some (.unit, writeText (getPointerBuilder b offset.toNat) v st)
  | .pointer .data offset, .setData v =>
      let st := writeDiscriminant discriminant b st
      some (.unit, writeData (getPointerBuilder b offset.toNat) v st)
  | .pointer (.struct dataWordCount pointerCount) offset, .initStruct =>
      let st := writeDiscriminant discriminant b st
      let (sb, st) :=
        initStructPointer (getPointerBuilder b offset.toNat) dataWordCount.toNat
          pointerCount.toNat st
      some (.struct sb, st)
  | .pointer (.list element) offset, .initList n =>
      let st := writeDiscriminant discriminant b st
      some (emitListInit (getPointerBuilder b offset.toNat) element n st)
  | .pointer (.list _) offset, .setList v =>
      let st := writeDiscriminant discriminant b st
      (emitListWrite fuel (getPointerBuilder b offset.toNat) v st).map (fun st => (.unit, st))
  | .pointer (.list _) offset, .setListFromReaders _ v =>
      let st := writeDiscriminant discriminant b st
      (emitListWrite fuel (getPointerBuilder b offset.toNat) v st).map (fun st => (.unit, st))
  | .pointer .anyPointer offset, .getPointer =>
      some (.pointer (getPointerBuilder b offset.toNat), st)
  | .pointer .interface offset, .setInterface v =>
      let st := writeDiscriminant discriminant b st
      some (.unit, writeCapability (getPointerBuilder b offset.toNat) v st)

-----------------------------------------------------------------------------------------
-- Footprints
-----------------------------------------------------------------------------------------

section Footprints

variable {st after : MessageBuilder}

/-- A list of scalars changes one old word, its pointer's. -/
theorem writeListSlots_writes (valid : st.Valid) (p : AnyPointerBuilder) (type : SlotType)
    (vals : List type.Value) : WritesAt p st (writeListSlots p type vals st) := by
  cases type with
  | void => exact initListPointer_writes valid ..
  | scalar s =>
      cases s with
      | bool => exact writeListBool_writes valid p vals
      | _ => exact writeListBytes_writes valid ..
  | enum => exact writeListBytes_writes valid ..

/-- Steps with one footprint, in turn. -/
theorem runAll_writes {written : Nat × Nat → Prop} {size : Nat}
    {step : Fin size → MessageBuilder → Option MessageBuilder}
    (each
      : ∀ i {st next : MessageBuilder}, st.Valid → step i st = some next →
          Writes written st next)
    (valid : st.Valid) (ran : runAll (List.ofFn step) st = some after)
    : Writes written st after := by
  refine Writes.foldlM ?_ valid ran
  intro act member st next valid ran
  obtain ⟨i, rfl⟩ := List.mem_ofFn.mp member
  exact each i valid ran

/-- An element of a list of structs lies inside the list. -/
theorem listStructBuilders_inside {lb : ListBuilder} (composite : lb.inlineComposite = true)
    {i : Nat} (inside : i < lb.elemCount)
    : ((listStructBuilders lb).getD i emptySb).seg = lb.seg
      ∧ lb.startWord ≤ ((listStructBuilders lb).getD i emptySb).dataOff
      ∧ ((listStructBuilders lb).getD i emptySb).dataOff
          ≤ ((listStructBuilders lb).getD i emptySb).ptrOff := by
  simp only [listStructBuilders, if_pos composite, List.getD_eq_getElem?_getD, List.getElem?_map,
    List.getElem?_range inside, Option.map_some, Option.getD_some]
  split_ifs <;> exact ⟨trivial, by omega, by omega⟩

/-- So does a list of structs, if its elements stay in their words. -/
theorem writeStructs_writes {p : AnyPointerBuilder} {dataWordCount pointerCount : UInt16}
    {size : Nat} {fill : Fin size → StructBuilder → MessageBuilder → Option MessageBuilder}
    (each
      : ∀ i {sb : StructBuilder} {st next : MessageBuilder}, sb.dataOff ≤ sb.ptrOff → st.Valid →
          fill i sb st = some next → Writes (Behind sb.seg sb.dataOff) st next)
    (valid : st.Valid)
    (ran : writeStructs p dataWordCount pointerCount size fill st = some after)
    : WritesAt p st after := by
  have start := initStructListPointer_valid valid p dataWordCount.toNat pointerCount.toNat size
  apply initStructListPointer_then valid
  refine runAll_writes ?_ start ran
  intro i st next valid ran
  obtain ⟨seg, first, ordered⟩ := @listStructBuilders_inside
    (initStructListPointer p dataWordCount.toNat pointerCount.toNat size _).1 rfl i i.isLt
  apply (each i ordered valid ran).widen
  intro cell _ behind
  exact ⟨behind.1.trans seg, Nat.le_trans first behind.2⟩

/-- So does a list of pointers, if its elements do. -/
theorem writePointers_writes {p : AnyPointerBuilder} {size : Nat}
    {write : Fin size → AnyPointerBuilder → MessageBuilder → Option MessageBuilder}
    (each
      : ∀ i {p : AnyPointerBuilder} {st next : MessageBuilder}, st.Valid →
          write i p st = some next → WritesAt p st next)
    (valid : st.Valid) (ran : writePointers p size write st = some after)
    : WritesAt p st after := by
  have start := initListPointer_writes valid p elemSizePointer size
  apply initListPointer_then valid elemSizePointer size
  refine runAll_writes ?_ start.valid ran
  intro i st next valid ran
  rw [listPointerBuilders_inside rfl rfl i.isLt] at ran
  apply (each i valid ran).widen
  rintro cell _ rfl
  exact ⟨rfl, Nat.le_add_right ..⟩

/-- So does a copy. -/
theorem copyAnyPointer_writesAt {fuel : Nat} {p : AnyPointerBuilder} {src : AnyPointer}
    (valid : st.Valid) (ran : copyAnyPointer fuel p src st = some after) : WritesAt p st after :=
  (copyAnyPointer_writes fuel p src st after valid ran).writes valid

/-- A source may be larger than the struct, but it is written from the struct's first word on. -/
theorem copyStruct_behind {fuel : Nat} {sb : StructBuilder} {src : StructReader}
    (ordered : sb.dataOff ≤ sb.ptrOff) (valid : st.Valid)
    (ran : copyStruct fuel sb src st = some after)
    : Writes (Behind sb.seg sb.dataOff) st after := by
  apply (copyStructWith_writes (copyAnyPointer_writes fuel) valid ran).widen
  rintro cell _ ⟨seg, ⟨first, -⟩ | ⟨first, -⟩⟩
  · exact ⟨seg, first⟩
  · exact ⟨seg, Nat.le_trans ordered first⟩

/-- The discriminant lies behind the start of the data. -/
theorem writeDiscriminant_behind (valid : st.Valid) (discriminant : Option DiscriminantWrite)
    (b : StructBuilder)
    : Writes (Behind b.seg b.dataOff) st (writeDiscriminant discriminant b st) := by
  cases discriminant with
  | none => exact ⟨valid, .refl _ _⟩
  | some discriminant =>
      apply (modifySegment_writes valid b.seg (b.dataOff * 8 + discriminant.byteOffset) _ _).widen
      rintro cell _ ⟨seg, first, -⟩
      exact ⟨seg, by omega⟩

/-- Bits of a struct's data section are written from the struct's first word on. -/
theorem scalarSet_behind (valid : st.Valid) (s : Scalar) (b : StructBuilder) (offset : Nat)
    (mask : Option (BitVec s.width)) (v : s.Value)
    : Writes (Behind b.seg b.dataOff) st (s.set b offset mask v st) := by
  obtain ⟨src, -, wrote⟩ := s.exists_write_eq b offset (s.toBits v ^^^ mask.getD 0#s.width) st
  rw [Scalar.set_eq, wrote]
  apply (modifySegment_writes valid b.seg (b.dataOff * 8 + s.bitOffset offset / 8) _ _).widen
  rintro cell _ ⟨seg, first, -⟩
  exact ⟨seg, by omega⟩

/-- So does a value that is set. -/
theorem SetExpr.run_behind {type : SlotType} (e : SetExpr type) (valid : st.Valid)
    (b : StructBuilder) (v : type.Value)
    : Writes (Behind b.seg b.dataOff) st (e.run b v st) := by
  cases e with
  | pure => exact ⟨valid, .refl _ _⟩
  | set access => exact scalarSet_behind valid _ b _ _ v
  | toUInt16 access => exact scalarSet_behind valid .uint16 b _ _ (EnumValue.toUInt16 v)

/-- A setter of the data section writes its value after the discriminant. -/
theorem genSetter_run (type : SlotType) (offset : UInt32) (defaultValue : type.Default)
    (discriminant : Option DiscriminantWrite) (b : StructBuilder) (v : type.Value)
    (st : MessageBuilder)
    : (genSetter type offset defaultValue discriminant).run b v st
      = (genSetter type offset defaultValue none).value.run b v
          (writeDiscriminant discriminant b st) := by
  cases type with
  | scalar s =>
      have emitted := ScalarDefault.genSetter_scalar s offset defaultValue
      exact (congrArg (fun setter => setter.run b v st) (emitted discriminant)).trans
        (congrArg (fun setter => setter.value.run b v (writeDiscriminant discriminant b st))
          (emitted none).symm)
  | void | enum => rfl

/-- A setter writes behind the start of the data. -/
theorem genSetter_run_behind {type : SlotType} {offset : UInt32} {defaultValue : type.Default}
    {discriminant : Option DiscriminantWrite} (valid : st.Valid) (b : StructBuilder)
    (v : type.Value)
    : Writes (Behind b.seg b.dataOff) st
        ((genSetter type offset defaultValue discriminant).run b v st) := by
  have first := writeDiscriminant_behind valid discriminant b
  rw [genSetter_run]
  exact first.trans (SetExpr.run_behind _ first.valid b v) (fun _ _ => id)

/-- A write through a pointer of the struct, after the discriminant. -/
theorem pointer_behind {b : StructBuilder} (ordered : b.dataOff ≤ b.ptrOff) (valid : st.Valid)
    {discriminant : Option DiscriminantWrite} {index : Nat}
    (writes
      : (writeDiscriminant discriminant b st).Valid →
          WritesAt (getPointerBuilder b index) (writeDiscriminant discriminant b st) after)
    : Writes (Behind b.seg b.dataOff) st after := by
  have first := writeDiscriminant_behind valid discriminant b
  apply first.trans (writes first.valid)
  rintro cell _ rfl
  exact ⟨rfl, Nat.le_add_right_of_le ordered⟩

mutual

/-- A list of any type changes one old word, its pointer's, by induction on the value. -/
theorem emitListWrite_writes {fuel : Nat} {p : AnyPointerBuilder} {flag : Bool}
    {element : ListElement} {st after : MessageBuilder} (valid : st.Valid)
    : (v : ListValue flag element) → emitListWrite fuel p v st = some after → WritesAt p st after
  | .slots vals, ran => by
      obtain rfl := Option.some.inj ran
      exact writeListSlots_writes valid p _ vals
  | .texts vals, ran => by
      obtain rfl := Option.some.inj ran
      exact
        writeListWith_writes (fun p text _ valid => writeText_writes valid p text) _ valid p vals
  | .datas vals, ran => by
      obtain rfl := Option.some.inj ran
      exact
        writeListWith_writes (fun p data _ valid => writeData_writes valid p data) _ valid p vals
  | .readers vals, ran => writeStructs_writes (fun _ _ _ _ => copyStruct_behind) valid ran
  | .structs size vals, ran =>
      writeStructs_writes (fun i _ _ _ ordered valid => setFromValue_writes ordered valid (vals i))
        valid ran
  | .capabilities vals, ran => by
      obtain rfl := Option.some.inj ran
      exact writeListWith_writes (fun p cap _ valid => writeCapability_writes valid p cap) _ valid
        p vals
  | .anyPointers vals, ran =>
      writePointers_writes (fun _ _ _ _ => copyAnyPointer_writesAt) valid ran
  | .lists size vals, ran =>
      writePointers_writes (fun i _ _ _ valid => emitListWrite_writes valid (vals i)) valid ran

/-- Setting all fields of a struct writes behind its start. -/
theorem setFromValue_writes {fuel : Nat} {b : StructBuilder} {st after : MessageBuilder}
    (ordered : b.dataOff ≤ b.ptrOff) (valid : st.Valid)
    : (v : StructValue) → setFromValue fuel b v st = some after →
        Writes (Behind b.seg b.dataOff) st after
  | .ofReader _, ran => copyStruct_behind ordered valid ran
  | .ofFields _ fields, ran =>
      runAll_writes (fun i _ _ valid => emitFieldSet_writes ordered valid (fields i)) valid ran

/-- Setting one field writes behind the struct's start. -/
theorem emitFieldSet_writes {fuel : Nat} {b : StructBuilder} {st after : MessageBuilder}
    (ordered : b.dataOff ≤ b.ptrOff) (valid : st.Valid)
    : (v : FieldValue) → emitFieldSet fuel b v st = some after →
        Writes (Behind b.seg b.dataOff) st after
  | .slot type offset defaultValue discriminant v, ran => by
      obtain rfl := Option.some.inj ran
      exact genSetter_run_behind valid b v
  | .text offset discriminant v, ran => by
      obtain rfl := Option.some.inj ran
      exact pointer_behind ordered valid (fun valid => writeText_writes valid _ v)
  | .data offset discriminant v, ran => by
      obtain rfl := Option.some.inj ran
      exact pointer_behind ordered valid (fun valid => writeData_writes valid _ v)
  | .struct dataWordCount pointerCount offset discriminant v, ran =>
      pointer_behind ordered valid (fun valid =>
        initStructPointer_then valid (setFromValue_writes (Nat.le_add_right ..)
          (initStructPointer_writes valid ..).valid v ran))
  | .list offset discriminant v, ran =>
      pointer_behind ordered valid (fun valid => emitListWrite_writes valid v ran)
  | .interface offset discriminant v, ran => by
      obtain rfl := Option.some.inj ran
      exact pointer_behind ordered valid (fun valid => writeCapability_writes valid _ v)
  | .anyPointer offset discriminant v, ran =>
      pointer_behind ordered valid (fun valid => copyAnyPointer_writesAt valid ran)
  | .group discriminant v, ran =>
      have first := writeDiscriminant_behind valid discriminant b
      first.trans (setFromValue_writes ordered first.valid v ran) (fun _ _ => id)

end

end Footprints

-----------------------------------------------------------------------------------------
-- Copies that end
-----------------------------------------------------------------------------------------

mutual

/-- Every source that is copied is acyclic. -/
def ListValue.Acyclic {flag : Bool} {element : ListElement} : ListValue flag element → Prop
  | .readers vals => ∀ i, (vals.get i).Acyclic
  | .structs _ vals => ∀ i, (vals i).Acyclic
  | .anyPointers vals => ∀ i, (vals.get i).Acyclic
  | .lists _ vals => ∀ i, (vals i).Acyclic
  | .slots _ | .texts _ | .datas _ | .capabilities _ => True

def StructValue.Acyclic : StructValue → Prop
  | .ofReader reader => reader.Acyclic
  | .ofFields _ fields => ∀ i, (fields i).Acyclic

def FieldValue.Acyclic : FieldValue → Prop
  | .struct _ _ _ _ v => v.Acyclic
  | .list _ _ v => v.Acyclic
  | .anyPointer _ _ v => v.Acyclic
  | .group _ v => v.Acyclic
  | .slot .. | .text .. | .data .. | .interface .. => True

end

/-- A run of steps that all return is a loop. -/
theorem runAll_eq {size : Nat} {step : Fin size → MessageBuilder → Option MessageBuilder}
    {result : Fin size → MessageBuilder → MessageBuilder}
    (each : ∀ i st, step i st = some (result i st)) (st : MessageBuilder)
    : runAll (List.ofFn step) st
      = some ((List.finRange size).foldl (fun st i => result i st) st) := by
  obtain rfl : step = fun i st => some (result i st) := funext₂ each
  rw [runAll, List.ofFn_eq_map, List.foldlM_map]
  exact List.foldlM_pure

/-- A list of structs ends with enough fuel, if its elements do. -/
theorem writeStructs_settles {size : Nat}
    {fill : Nat → Fin size → StructBuilder → MessageBuilder → Option MessageBuilder}
    (each
      : ∀ i, Settles (fun fuel (call : StructBuilder × MessageBuilder) =>
          fill fuel i call.1 call.2))
    (dataWordCount pointerCount : UInt16)
    : Settles (fun fuel (call : AnyPointerBuilder × MessageBuilder) =>
        writeStructs call.1 dataWordCount pointerCount size (fill fuel) call.2) := by
  obtain ⟨result, fuel, ran⟩ := Settles.of_forall each
  exact ⟨_, fuel, fun more enough call => runAll_eq (fun i st => ran more enough i (_, st)) _⟩

/-- A list of pointers ends with enough fuel, if its elements do. -/
theorem writePointers_settles {size : Nat}
    {write : Nat → Fin size → AnyPointerBuilder → MessageBuilder → Option MessageBuilder}
    (each
      : ∀ i, Settles (fun fuel (call : AnyPointerBuilder × MessageBuilder) =>
          write fuel i call.1 call.2))
    : Settles (fun fuel (call : AnyPointerBuilder × MessageBuilder) =>
        writePointers call.1 size (write fuel) call.2) := by
  obtain ⟨result, fuel, ran⟩ := Settles.of_forall each
  exact ⟨_, fuel, fun more enough call => runAll_eq (fun i st => ran more enough i (_, st)) _⟩

mutual

/-- A list of acyclic values ends with enough fuel, by induction on the value. -/
theorem emitListWrite_settles {flag : Bool} {element : ListElement}
    : (v : ListValue flag element) → v.Acyclic →
        Settles (fun fuel (call : AnyPointerBuilder × MessageBuilder) =>
          emitListWrite fuel call.1 v call.2)
  | .slots _, _ | .texts _, _ | .datas _, _ | .capabilities _, _ => by
      simp only [emitListWrite]
      exact .pure _
  | .readers _, acyclic => by
      simp only [emitListWrite]
      exact writeStructs_settles (fun i => copyStruct_settles (acyclic i)) _ _
  | .structs _ vals, acyclic => by
      simp only [emitListWrite]
      exact writeStructs_settles (fun i => setFromValue_settles (vals i) (acyclic i)) _ _
  | .anyPointers _, acyclic => by
      simp only [emitListWrite]
      exact writePointers_settles (fun i => copyAnyPointer_settles (acyclic i))
  | .lists _ vals, acyclic => by
      simp only [emitListWrite]
      exact writePointers_settles (fun i => emitListWrite_settles (vals i) (acyclic i))

/-- So does setting all fields of a struct. -/
theorem setFromValue_settles
    : (v : StructValue) → v.Acyclic →
        Settles (fun fuel (call : StructBuilder × MessageBuilder) =>
          setFromValue fuel call.1 v call.2)
  | .ofReader _, acyclic => by
      simp only [setFromValue]
      exact copyStruct_settles acyclic
  | .ofFields _ fields, acyclic => by
      obtain ⟨result, fuel, ran⟩ :=
        Settles.of_forall (fun i => emitFieldSet_settles (fields i) (acyclic i))
      simp only [setFromValue]
      exact ⟨_, fuel, fun more enough call => runAll_eq (fun i st => ran more enough i (_, st)) _⟩

/-- So does setting one field. -/
theorem emitFieldSet_settles
    : (v : FieldValue) → v.Acyclic →
        Settles (fun fuel (call : StructBuilder × MessageBuilder) =>
          emitFieldSet fuel call.1 v call.2)
  | .slot .., _ | .text .., _ | .data .., _ | .interface .., _ => by
      simp only [emitFieldSet]
      exact .pure _
  | .struct _ _ _ _ v, acyclic => by
      simp only [emitFieldSet]
      exact (setFromValue_settles v acyclic).comap _
  | .list offset discriminant v, acyclic => by
      simp only [emitFieldSet]
      exact (emitListWrite_settles v acyclic).comap (fun call : StructBuilder × MessageBuilder =>
        (getPointerBuilder call.1 offset.toNat, writeDiscriminant discriminant call.1 call.2))
  | .anyPointer offset discriminant _, acyclic => by
      simp only [emitFieldSet]
      exact (copyAnyPointer_settles acyclic).comap (fun call : StructBuilder × MessageBuilder =>
        (getPointerBuilder call.1 offset.toNat, writeDiscriminant discriminant call.1 call.2))
  | .group discriminant v, acyclic => by
      simp only [emitFieldSet]
      exact (setFromValue_settles v acyclic).comap (fun call : StructBuilder × MessageBuilder =>
        (call.1, writeDiscriminant discriminant call.1 call.2))

end

/-- Only copies of cyclic sources do not come to an end. -/
def Operation.Acyclic {type : FieldType} : Operation type → Prop
  | .setList v => v.Acyclic
  | .setListFromReaders _ v => v.Acyclic
  | _ => True

/-- Every operation with acyclic values ends with enough fuel. -/
theorem Operation.run_settles {type : FieldType} (operation : Operation type)
    (acyclic : operation.Acyclic) (discriminant : Option DiscriminantWrite) (b : StructBuilder)
    : Settles (fun fuel => operation.run fuel discriminant b) := by
  cases operation with
  | @setList _ offset v | @setListFromReaders _ offset _ v =>
      exact ((emitListWrite_settles v acyclic).comap (fun st =>
        (getPointerBuilder b offset.toNat, writeDiscriminant discriminant b st))).map _
  | _ => exact .pure _

end Capnp.Plugin
