import Capnp.Plugin.BuilderOperations

/-! Which member of a union a struct has. The setters and initialisers of a member each write
the member's discriminant; the accessors that hand out a builder for it do not.
-/

namespace Capnp.Plugin

open ByteString MessageBuilder

-----------------------------------------------------------------------------------------
-- The schema
-----------------------------------------------------------------------------------------

/-- The discriminant value of a field outside the union. -/
def noDiscriminant : UInt16 := 0xffff

/-- A field of a struct. Outside the union its discriminant value is `noDiscriminant`. -/
structure StructField where
  discriminantValue : UInt16
  type : FieldType

def StructField.isUnion (field : StructField) : Bool :=
  field.discriminantValue != noDiscriminant

/-- A struct, or a group, whose fields lie in the sections of its struct. -/
structure StructNode where
  discriminantOffset : UInt32
  fields : List StructField

namespace StructNode

variable (node : StructNode)

def unionFields : List StructField :=
  node.fields.filter StructField.isUnion

/-- As `genStruct` computes it. -/
def discByteOffset : Nat :=
  if node.unionFields.length > 0 then (node.discriminantOffset * 2).toNat else 0

def discriminantWrite (field : StructField) : Option DiscriminantWrite :=
  if field.isUnion then some ⟨node.discByteOffset, field.discriminantValue⟩ else none

/-- The member whose case `Reader.which` takes. -/
def which (r : StructReader) : Option StructField :=
  let disc := getUInt16 r node.discByteOffset
  node.unionFields.find? (fun field => field.discriminantValue == disc)

end StructNode

/-- A field of the data section lies inside of it. -/
def FieldType.Inside (dataWordCount : UInt16) : FieldType → Prop
  | .slot type offset _ => (offset.toNat + 1) * type.width ≤ 64 * dataWordCount.toNat
  | .group | .pointer _ _ => True

/-- A field of the data section has none of the 16 bits from `bit` on. -/
def FieldType.Apart (bit : Nat) : FieldType → Prop
  | .slot type offset _ =>
      offset.toNat * type.width + type.width ≤ bit ∨ bit + 16 ≤ offset.toNat * type.width
  | .group | .pointer _ _ => True

/-- A struct with a union and the groups in it, laid out without overlaps: the discriminant's
bits are neither a field's nor another union's, and no two members share a value.
-/
structure UnionSchema extends StructNode where
  dataWordCount : UInt16
  pointerCount : UInt16
  groups : List StructNode
  hasUnion : 0 < toStructNode.unionFields.length
  distinct : (toStructNode.unionFields.map StructField.discriminantValue).Nodup
  discriminantInside
    : ∀ node ∈ toStructNode :: groups, 0 < node.unionFields.length →
        16 * (node.discriminantOffset.toNat + 1) ≤ 64 * dataWordCount.toNat
  inside
    : ∀ node ∈ toStructNode :: groups, ∀ field ∈ node.fields, field.type.Inside dataWordCount
  apart
    : ∀ node ∈ toStructNode :: groups, ∀ field ∈ node.fields,
        field.type.Apart (16 * toStructNode.discriminantOffset.toNat)
  discriminantApart
    : ∀ group ∈ groups, 0 < group.unionFields.length →
        group.discriminantOffset ≠ toStructNode.discriminantOffset

def UnionSchema.initRoot (schema : UnionSchema) (st : MessageBuilder)
    : StructBuilder × MessageBuilder :=
  initStructPointer getRootPointer schema.dataWordCount.toNat schema.pointerCount.toNat st

-----------------------------------------------------------------------------------------
-- Runs of operations
-----------------------------------------------------------------------------------------

/-- An operation of the builder of a struct or group. -/
structure Call (node : StructNode) where
  field : StructField
  declared : field ∈ node.fields
  operation : Operation field.type

def Call.run {node : StructNode} (fuel : Nat) (b : StructBuilder) (call : Call node)
    (st : MessageBuilder) : Option MessageBuilder :=
  (call.operation.run fuel (node.discriminantWrite call.field) b st).map Prod.snd

/-- The cells of the data section. -/
def DataCell (b : StructBuilder) (cell : Nat × Nat) : Prop :=
  cell.1 = b.seg ∧ b.dataOff ≤ cell.2 ∧ cell.2 < b.dataOff + b.dataWords

/-- A step of a program that builds a struct: an operation of the struct's own builder or of
the builder of a group in it, or something that happens outside of its data section, as in the
objects that its members were initialised with.
-/
inductive Step (schema : UnionSchema) (b : StructBuilder) where
  | own (call : Call schema.toStructNode)
  | inGroup (group : StructNode) (nested : group ∈ schema.groups) (call : Call group)
  | elsewhere (act : MessageBuilder → MessageBuilder)
      (outside : ∀ st : MessageBuilder, st.Valid → b.Allocated st →
        Writes (fun cell => ¬ DataCell b cell) st (act st))

variable {schema : UnionSchema} {b : StructBuilder}

def Step.run (fuel : Nat) : Step schema b → MessageBuilder → Option MessageBuilder
  | .own call => call.run fuel b
  | .inGroup _ _ call => call.run fuel b
  | .elsewhere act _ => fun st => some (act st)

def runSteps (fuel : Nat) (steps : List (Step schema b)) (st : MessageBuilder)
    : Option MessageBuilder :=
  steps.foldlM (fun st step => step.run fuel st) st

/-- The steps come to an end, with a result that more fuel does not change. -/
def RunsTo (steps : List (Step schema b)) (before after : MessageBuilder) : Prop :=
  ∃ fuel, ∀ more ≥ fuel, runSteps more steps before = some after

def Step.Acyclic : Step schema b → Prop
  | .own call => call.operation.Acyclic
  | .inGroup _ _ call => call.operation.Acyclic
  | .elsewhere _ _ => True

/-- The setters and initialisers, all of which start with the write of the discriminant. -/
def Operation.writesDiscriminant {type : FieldType} : Operation type → Bool
  | .getGroup | .getPointer | .clear _ => false
  | _ => true

/-- The operations that write a field or hand out a builder for it; `clear` only empties it. -/
def Operation.writesOrHandsOut {type : FieldType} : Operation type → Bool
  | .clear _ => false
  | _ => true

/-- The union member that a step writes or hands out a builder for. -/
def Step.concerns : Step schema b → Option StructField
  | .own call =>
      if call.field.isUnion && call.operation.writesOrHandsOut then some call.field else none
  | .inGroup _ _ _ | .elsewhere _ _ => none

/-- The union member whose setter or initialiser a step is. -/
def Step.selects : Step schema b → Option StructField
  | .own call =>
      if call.field.isUnion && call.operation.writesDiscriminant then some call.field else none
  | .inGroup _ _ _ | .elsewhere _ _ => none

def lastConcerned (steps : List (Step schema b)) : Option StructField :=
  (steps.filterMap Step.concerns).getLast?

def lastSelected (steps : List (Step schema b)) : Option StructField :=
  (steps.filterMap Step.selects).getLast?

/-- The member that was written or handed out last is the selected one, and where there is
none the selection stays.
-/
structure WritingSelects (steps : List (Step schema b)) (before after : MessageBuilder) : Prop where
  selected : ∀ m, lastConcerned steps = some m → schema.which (b.reader after) = some m
  others
    : (∀ step ∈ steps, step.concerns = none) →
        schema.which (b.reader after) = schema.which (b.reader before)

/-- The member that was written or handed out last is the one of the last setter or initialiser
of a union member, or without any of those the one that was selected before.
-/
def AccessorsFollow (steps : List (Step schema b)) (before : MessageBuilder) : Prop :=
  ∀ m, lastConcerned steps = some m →
    (lastSelected steps).or (schema.which (b.reader before)) = some m

-----------------------------------------------------------------------------------------
-- What keeps two bytes of the data section
-----------------------------------------------------------------------------------------

/-- The builder stays valid, the struct allocated, and the two bytes read as before. -/
structure Keeps (b : StructBuilder) (byteOffset : Nat) (before after : MessageBuilder) : Prop where
  valid : after.Valid
  allocated : b.Allocated after
  same : getUInt16 (b.reader after) byteOffset = getUInt16 (b.reader before) byteOffset

/-- What two steps keep, both together keep. -/
theorem Keeps.trans {byteOffset : Nat} {before middle after : MessageBuilder}
    (first : Keeps b byteOffset before middle) (second : Keeps b byteOffset middle after)
    : Keeps b byteOffset before after :=
  ⟨second.valid, second.allocated, second.same.trans first.same⟩

/-- Writing to a message takes no words back. -/
theorem allocated_of_writes {written : Nat × Nat → Prop} {before after : MessageBuilder}
    (allocated : b.Allocated before) (writes : Writes written before after)
    : b.Allocated after where
  pointers := allocated.pointers
  inside := by
    have room := allocated.inside
    by_contra beyond
    have last : b.ptrOff + b.ptrCount - 1 < before.used b.seg := by omega
    have kept : b.ptrOff + b.ptrCount - 1 < after.used b.seg :=
      writes.effect.grows (b.seg, b.ptrOff + b.ptrCount - 1) last
    omega

section Bytes

variable {byteOffset : Nat} {before after : MessageBuilder} (valid : before.Valid)
  (allocated : b.Allocated before) (inside : byteOffset + 2 ≤ 8 * b.dataWords)

include valid allocated inside

/-- The discriminant is kept where its two bytes are. -/
theorem keeps_of_bytes (valid' : after.Valid) (allocated' : b.Allocated after)
    (same
      : ∀ i < 2, after.byteAt b.seg (b.dataOff * 8 + byteOffset + i)
          = before.byteAt b.seg (b.dataOff * 8 + byteOffset + i))
    : Keeps b byteOffset before after := by
  refine ⟨valid', allocated', ?_⟩
  have pointers := allocated.pointers
  have room := allocated.inside
  have room' := allocated'.inside
  have byte (i : Nat) (small : i < 2)
      : readByte (buildMessage after) b.seg (b.dataOff * 8 + byteOffset + i)
        = readByte (buildMessage before) b.seg (b.dataOff * 8 + byteOffset + i) := by
    rw [readByte_buildMessage valid' (by omega), readByte_buildMessage valid (by omega)]
    exact same i small
  show ofUint16Le (readByte _ _ (b.dataOff * 8 + byteOffset + 0))
      (readByte _ _ (b.dataOff * 8 + byteOffset + 1))
    = ofUint16Le (readByte _ _ (b.dataOff * 8 + byteOffset + 0))
      (readByte _ _ (b.dataOff * 8 + byteOffset + 1))
  exact congrArg₂ ofUint16Le (byte 0 (by omega)) (byte 1 (by omega))

/-- Whatever is written outside of the data section keeps its bytes. -/
theorem keeps_of_writes {written : Nat × Nat → Prop} (writes : Writes written before after)
    (outside : ∀ cell, DataCell b cell → ¬ written cell) : Keeps b byteOffset before after := by
  have pointers := allocated.pointers
  have room := allocated.inside
  apply keeps_of_bytes valid allocated inside writes.valid (allocated_of_writes allocated writes)
  intro i small
  let cell : Nat × Nat := (b.seg, b.dataOff + (byteOffset + i) / 8)
  have owned : store.owned before cell := by
    show b.dataOff + (byteOffset + i) / 8 < before.used b.seg
    omega
  have data : DataCell b cell := ⟨rfl, Nat.le_add_right .., by simp only [cell]; omega⟩
  have word := writes.wordAt_eq owned (outside cell data)
  have position : b.dataOff * 8 + byteOffset + i = cell.2 * 8 + (byteOffset + i) % 8 := by
    simp only [cell]
    omega
  rw [position]
  exact List.map_inj_left.mp word _ (List.mem_range.mpr (Nat.mod_lt _ (by omega)))

/-- What is written behind a pointer keeps the discriminant. -/
theorem keeps_of_writesAt {index : Nat} (writes : WritesAt (getPointerBuilder b index) before after)
    : Keeps b byteOffset before after := by
  have pointers := allocated.pointers
  apply keeps_of_writes valid allocated inside writes
  rintro cell ⟨-, -, data⟩ rfl
  simp only [getPointerBuilder] at data
  omega

/-- Other bytes of the data section may be written. -/
theorem keeps_of_writeBytesAt {offset : Nat} {src : List UInt8}
    (apart : offset + src.length ≤ byteOffset ∨ byteOffset + 2 ≤ offset)
    : Keeps b byteOffset before (writeBytesAt b.seg (b.dataOff * 8 + offset) src before) := by
  apply keeps_of_bytes valid allocated inside (writeBytesAt_valid valid ..)
    ⟨allocated.pointers, allocated.inside⟩
  intro i small
  rw [byteAt_writeBytesAt, if_neg]
  rintro ⟨⟨-, first, last⟩, -⟩
  omega

/-- Bits apart from the two bytes may be set. -/
theorem scalarSet_keeps {s : Scalar} {offset : UInt32} {words : UInt16}
    (even : byteOffset % 2 = 0)
    (within : (offset.toNat + 1) * s.width ≤ 64 * words.toNat)
    (apart
      : offset.toNat * s.width + s.width ≤ 8 * byteOffset
        ∨ 8 * byteOffset + 16 ≤ offset.toNat * s.width)
    (mask : Option (BitVec s.width)) (v : s.Value)
    : Keeps b byteOffset before (s.set b (scaledOffset s offset).toNat mask v before) := by
  have position := bitOffset_scaledOffset s offset words.toNat_lt within
  obtain ⟨src, length, wrote⟩ := s.exists_write_eq b (scaledOffset s offset).toNat
    (s.toBits v ^^^ mask.getD 0#s.width) before
  rw [Scalar.set_eq, wrote, position]
  apply keeps_of_writeBytesAt valid allocated inside
  rw [length, Scalar.bytes]
  omega

/-- A value that is set apart from the discriminant keeps it. -/
theorem setValue_keeps {type : SlotType} {offset : UInt32} {defaultValue : type.Default}
    {words : UInt16} (even : byteOffset % 2 = 0)
    (within : FieldType.Inside words (.slot type offset defaultValue))
    (apart : FieldType.Apart (8 * byteOffset) (.slot type offset defaultValue)) (v : type.Value)
    : Keeps b byteOffset before
        ((genSetter type offset defaultValue none).value.run b v before) := by
  cases type with
  | void => exact ⟨valid, allocated, rfl⟩
  | scalar s =>
      have kept := scalarSet_keeps valid allocated inside even within apart
        (ScalarDefault.access s offset defaultValue).mask v
      have emitted := ScalarDefault.genSetter_scalar s offset defaultValue none
      exact emitted ▸ kept
  | enum enumerants =>
      exact scalarSet_keeps (s := .uint16) valid allocated inside even within apart
        (ScalarDefault.access .uint16 offset defaultValue).mask (EnumValue.toUInt16 v)

end Bytes

-----------------------------------------------------------------------------------------
-- Operations
-----------------------------------------------------------------------------------------

/-- A list that is initialized changes one old word, its pointer's. -/
theorem emitListInit_writes {st : MessageBuilder} (valid : st.Valid) (p : AnyPointerBuilder)
    (element : ListElement) (n : Nat) : WritesAt p st (emitListInit p element n st).2 := by
  cases element with
  | struct dataWordCount pointerCount =>
      have start := initStructListPointer_valid valid p dataWordCount.toNat pointerCount.toNat n
      exact initStructListPointer_then valid ⟨start, .refl _ _⟩
  | slot | list | anyPointer | interface | text | data => exact initListPointer_writes valid ..

/-- The state in which an operation writes its field. -/
def Operation.start {type : FieldType} (operation : Operation type)
    (discriminant : Option DiscriminantWrite) (b : StructBuilder) (st : MessageBuilder)
    : MessageBuilder :=
  if operation.writesDiscriminant then writeDiscriminant discriminant b st else st

/-- Writing the discriminant first keeps the struct where it is. -/
theorem Operation.start_allocated {type : FieldType} (operation : Operation type)
    (discriminant : Option DiscriminantWrite) {st : MessageBuilder} (valid : st.Valid)
    (allocated : b.Allocated st)
    : (operation.start discriminant b st).Valid
      ∧ b.Allocated (operation.start discriminant b st) := by
  rw [Operation.start]
  split_ifs with writes
  · have first := writeDiscriminant_behind valid discriminant b
    exact ⟨first.valid, allocated_of_writes allocated first⟩
  · exact ⟨valid, allocated⟩

/-- Past its write of the discriminant an operation keeps the bytes that are not its field's. -/
theorem Operation.run_keeps {type : FieldType} {operation : Operation type} {fuel : Nat}
    {discriminant : Option DiscriminantWrite} {st after : MessageBuilder} {handed : Handed}
    (ran : operation.run fuel discriminant b st = some (handed, after)) (valid : st.Valid)
    (allocated : b.Allocated st) {byteOffset : Nat} (inside : byteOffset + 2 ≤ 8 * b.dataWords)
    (even : byteOffset % 2 = 0) {words : UInt16} (within : type.Inside words)
    (apart : type.Apart (8 * byteOffset))
    : Keeps b byteOffset (operation.start discriminant b st) after := by
  obtain ⟨started, allocated'⟩ := operation.start_allocated discriminant valid allocated
  cases operation with
  | getGroup | getPointer =>
      obtain ⟨-, rfl⟩ := Prod.mk.inj (Option.some.inj ran)
      exact ⟨valid, allocated, rfl⟩
  | clear =>
      obtain ⟨-, rfl⟩ := Prod.mk.inj (Option.some.inj ran)
      exact keeps_of_writesAt valid allocated inside (writeWordLE_writes valid ..)
  | set v =>
      obtain ⟨-, rfl⟩ := Prod.mk.inj (Option.some.inj ran)
      rw [genSetter_run]
      exact setValue_keeps started allocated' inside even within apart v
  | setText v =>
      obtain ⟨-, rfl⟩ := Prod.mk.inj (Option.some.inj ran)
      exact keeps_of_writesAt started allocated' inside (writeText_writes started ..)
  | setData v =>
      obtain ⟨-, rfl⟩ := Prod.mk.inj (Option.some.inj ran)
      exact keeps_of_writesAt started allocated' inside (writeData_writes started ..)
  | initStruct =>
      obtain ⟨-, rfl⟩ := Prod.mk.inj (Option.some.inj ran)
      exact keeps_of_writesAt started allocated' inside (initStructPointer_writes started ..)
  | @initList element offset n =>
      have result := congrArg Prod.snd (Option.some.inj ran)
      have writes := emitListInit_writes started (getPointerBuilder b offset.toNat) element n
      exact keeps_of_writesAt started allocated' inside (result ▸ writes)
  | setList v | setListFromReaders _ v =>
      obtain ⟨last, wrote, same⟩ := Option.map_eq_some_iff.mp ran
      obtain ⟨-, rfl⟩ := Prod.mk.inj same
      exact keeps_of_writesAt started allocated' inside (emitListWrite_writes started v wrote)
  | setInterface v =>
      obtain ⟨-, rfl⟩ := Prod.mk.inj (Option.some.inj ran)
      exact keeps_of_writesAt started allocated' inside (writeCapability_writes started ..)

-----------------------------------------------------------------------------------------
-- Steps
-----------------------------------------------------------------------------------------

/-- Values that are found by a key no two of them share. -/
theorem find?_key {α κ : Type*} [BEq κ] [LawfulBEq κ] {key : α → κ} {items : List α}
    (distinct : (items.map key).Nodup) {item : α} (member : item ∈ items)
    : items.find? (fun other => key other == key item) = some item := by
  induction items with
  | nil => exact absurd member List.not_mem_nil
  | cons first rest ih =>
      rw [List.map_cons, List.nodup_cons] at distinct
      rcases List.mem_cons.mp member with rfl | later
      · exact List.find?_cons_of_pos (beq_self_eq_true _)
      · have differ : ¬ key first = key item := by
          intro same
          apply distinct.1
          rw [same]
          exact List.mem_map_of_mem later
        rw [List.find?_cons, beq_eq_false_iff_ne.mpr differ]
        exact ih distinct.2 later

namespace UnionSchema

variable (schema : UnionSchema)

/-- Offsets inside a data section do not wrap around. -/
theorem discByteOffset_eq {node : StructNode} (member : node ∈ schema.toStructNode :: schema.groups)
    (union : 0 < node.unionFields.length)
    : node.discByteOffset = 2 * node.discriminantOffset.toNat := by
  have inside := schema.discriminantInside node member union
  have words := schema.dataWordCount.toNat_lt
  have two : (2 : UInt32).toNat = 2 := rfl
  rw [StructNode.discByteOffset, if_pos union, UInt32.toNat_mul, two]
  omega

/-- The discriminant's offset counts pairs of bytes. -/
theorem discByteOffset_self
    : schema.discByteOffset = 2 * schema.discriminantOffset.toNat :=
  schema.discByteOffset_eq List.mem_cons_self schema.hasUnion

/-- The discriminant lies in the data section. -/
theorem discriminant_inside (large : schema.dataWordCount.toNat ≤ b.dataWords)
    : schema.discByteOffset + 2 ≤ 8 * b.dataWords := by
  have inside := schema.discriminantInside _ List.mem_cons_self schema.hasUnion
  rw [discByteOffset_self]
  omega

/-- What is selected depends on the discriminant only. -/
theorem which_congr {r r' : StructReader}
    (same : getUInt16 r schema.discByteOffset = getUInt16 r' schema.discByteOffset)
    : schema.which r = schema.which r' := by
  rw [StructNode.which, same]
  rfl

/-- A member is selected by its own discriminant value. -/
theorem which_eq {r : StructReader} {m : StructField} (member : m ∈ schema.fields)
    (union : m.isUnion = true)
    (value : getUInt16 r schema.discByteOffset = m.discriminantValue)
    : schema.which r = some m := by
  have inUnion : m ∈ schema.unionFields := List.mem_filter.mpr ⟨member, union⟩
  rw [StructNode.which, value]
  exact find?_key schema.distinct inUnion

end UnionSchema

section Steps

variable {fuel : Nat} {st after : MessageBuilder} (large : schema.dataWordCount.toNat ≤ b.dataWords)
  (valid : st.Valid) (allocated : b.Allocated st)

include large valid allocated

/-- The operations of the struct and of its groups keep the discriminant, except where they
start with a write of it.
-/
theorem Call.run_keeps {node : StructNode} (member : node ∈ schema.toStructNode :: schema.groups)
    {call : Call node} (ran : call.run fuel b st = some after)
    : Keeps b schema.discByteOffset
        (call.operation.start (node.discriminantWrite call.field) b st) after := by
  obtain ⟨⟨handed, last⟩, wrote, rfl⟩ := Option.map_eq_some_iff.mp ran
  have place := schema.discByteOffset_self
  have apart := schema.apart node member call.field call.declared
  have position : 8 * schema.discByteOffset = 16 * schema.discriminantOffset.toNat := by omega
  rw [← position] at apart
  exact Operation.run_keeps wrote valid allocated (schema.discriminant_inside large) (by omega)
    (schema.inside node member call.field call.declared) apart

/-- The discriminant of a group is another one. -/
theorem writeDiscriminant_keeps {group : StructNode} (nested : group ∈ schema.groups)
    {field : StructField} (declared : field ∈ group.fields)
    : Keeps b schema.discByteOffset st
        (writeDiscriminant (group.discriminantWrite field) b st) := by
  rw [StructNode.discriminantWrite]
  split_ifs with union
  · have hasUnion : 0 < group.unionFields.length :=
      List.length_pos_of_mem (List.mem_filter.mpr ⟨declared, union⟩)
    have offset := schema.discByteOffset_eq (List.mem_cons_of_mem _ nested) hasUnion
    have other := mt UInt32.toNat_inj.mp (schema.discriminantApart group nested hasUnion)
    have own := schema.discByteOffset_self
    apply keeps_of_writeBytesAt valid allocated (schema.discriminant_inside large)
    show group.discByteOffset + 2 ≤ schema.discByteOffset
      ∨ schema.discByteOffset + 2 ≤ group.discByteOffset
    omega
  · exact ⟨valid, allocated, rfl⟩

/-- An operation of the struct's own builder, by whether it writes the discriminant. -/
theorem Call.which_own {call : Call schema.toStructNode} (ran : call.run fuel b st = some after)
    : after.Valid ∧ b.Allocated after
      ∧ schema.which (b.reader after)
        = (Step.own call : Step schema b).selects.or (schema.which (b.reader st)) := by
  obtain ⟨valid', allocated', same⟩ :=
    Call.run_keeps large valid allocated List.mem_cons_self ran
  refine ⟨valid', allocated', ?_⟩
  rw [Operation.start, StructNode.discriminantWrite] at same
  rw [Step.selects]
  cases union : call.field.isUnion with
  | false =>
      rw [union] at same
      simp only [Bool.false_eq_true, if_false, writeDiscriminant, ite_self] at same
      exact schema.which_congr same
  | true =>
      cases writes : call.operation.writesDiscriminant with
      | false =>
          rw [writes] at same
          exact schema.which_congr same
      | true =>
          have pointers := allocated.pointers
          have room := allocated.inside
          have place := schema.discriminant_inside large
          have owned : b.dataOff * 8 + schema.discByteOffset + 2 ≤ st.used b.seg * 8 := by omega
          rw [writes, union] at same
          exact schema.which_eq call.declared union
            (same.trans (getUInt16_setUInt16 valid owned call.field.discriminantValue))

/-- What one step does to the selection. -/
theorem Step.which_run {step : Step schema b} (ran : step.run fuel st = some after)
    : after.Valid ∧ b.Allocated after
      ∧ schema.which (b.reader after) = step.selects.or (schema.which (b.reader st)) := by
  cases step with
  | own call => exact Call.which_own large valid allocated ran
  | inGroup group nested call =>
      have kept := Call.run_keeps large valid allocated (List.mem_cons_of_mem _ nested) ran
      have start
          : Keeps b schema.discByteOffset st
              (call.operation.start (group.discriminantWrite call.field) b st) := by
        rw [Operation.start]
        split_ifs
        · exact writeDiscriminant_keeps large valid allocated nested call.declared
        · exact ⟨valid, allocated, rfl⟩
      obtain ⟨valid', allocated', same⟩ := start.trans kept
      exact ⟨valid', allocated', schema.which_congr same⟩
  | elsewhere act outside =>
      obtain rfl := Option.some.inj ran
      obtain ⟨valid', allocated', same⟩ :=
        keeps_of_writes valid allocated (schema.discriminant_inside large)
          (outside st valid allocated) (fun _ data => not_not_intro data)
      exact ⟨valid', allocated', schema.which_congr same⟩

end Steps

-----------------------------------------------------------------------------------------
-- Runs
-----------------------------------------------------------------------------------------

/-- The last selection of a run is that of its rest, if any. -/
theorem lastSelected_cons (step : Step schema b) (rest : List (Step schema b))
    : lastSelected (step :: rest) = (lastSelected rest).or step.selects := by
  rw [lastSelected, lastSelected]
  cases selects : step.selects with
  | none => rw [List.filterMap_cons_none selects, Option.or_none]
  | some m => rw [List.filterMap_cons_some selects, List.getLast?_cons, Option.or_some]

/-- A run leaves the member selected that it set or initialised last, by induction on the
steps.
-/
theorem runSteps_which {fuel : Nat} {st after : MessageBuilder} {steps : List (Step schema b)}
    (large : schema.dataWordCount.toNat ≤ b.dataWords) (valid : st.Valid)
    (allocated : b.Allocated st) (ran : runSteps fuel steps st = some after)
    : schema.which (b.reader after)
      = (lastSelected steps).or (schema.which (b.reader st)) := by
  induction steps generalizing st with
  | nil =>
      obtain rfl := Option.some.inj ran
      rfl
  | cons step rest ih =>
      obtain ⟨middle, first, remaining⟩ := Option.bind_eq_some_iff.mp ran
      obtain ⟨valid', allocated', selection⟩ := Step.which_run large valid allocated first
      rw [ih valid' allocated' remaining, selection, lastSelected_cons, Option.or_assoc]

/-- A step with an acyclic value ends with enough fuel. -/
theorem Step.run_settles {step : Step schema b} (acyclic : step.Acyclic)
    : Settles (fun fuel => step.run fuel) := by
  cases step with
  | own call => exact (Operation.run_settles call.operation acyclic _ b).map Prod.snd
  | inGroup _ _ call => exact (Operation.run_settles call.operation acyclic _ b).map Prod.snd
  | elsewhere act => exact .pure act

/-- So does a run of such steps. -/
theorem runSteps_settles {steps : List (Step schema b)} (acyclic : ∀ step ∈ steps, step.Acyclic)
    : Settles (fun fuel => runSteps fuel steps) := by
  induction steps with
  | nil => exact .pure id
  | cons step rest ih =>
      exact (Step.run_settles (acyclic step List.mem_cons_self)).bind
        (ih (fun other member => acyclic other (List.mem_cons_of_mem _ member)))

/-- A run with acyclic values has an end. -/
theorem exists_runsTo {steps : List (Step schema b)} (acyclic : ∀ step ∈ steps, step.Acyclic)
    (before : MessageBuilder) : ∃ after, RunsTo steps before after := by
  obtain ⟨result, fuel, ran⟩ := runSteps_settles acyclic
  exact ⟨result before, fuel, fun more enough => ran more enough before⟩

/-- What writes nothing writes no discriminant. -/
theorem Operation.writesDiscriminant_eq_false {type : FieldType} {operation : Operation type}
    (silent : operation.writesOrHandsOut = false) : operation.writesDiscriminant = false := by
  cases operation with
  | clear => rfl
  | _ => exact Bool.noConfusion silent

/-- A setter or initialiser writes the member that it selects. -/
theorem Step.selects_eq_none {step : Step schema b} (unconcerned : step.concerns = none)
    : step.selects = none := by
  cases step with
  | own call =>
      rw [Step.concerns] at unconcerned
      rw [Step.selects, if_neg]
      intro selects
      obtain ⟨union, writes⟩ := Bool.and_eq_true_iff.mp selects
      cases concerned : call.operation.writesOrHandsOut with
      | true => simp [union, concerned] at unconcerned
      | false =>
          rw [Operation.writesDiscriminant_eq_false concerned] at writes
          exact Bool.false_ne_true writes
  | inGroup | elsewhere => rfl

/-- Without a member of the union nothing is selected. -/
theorem lastSelected_eq_none {steps : List (Step schema b)}
    (unconcerned : ∀ step ∈ steps, step.concerns = none) : lastSelected steps = none := by
  have none : steps.filterMap Step.selects = [] :=
    List.filterMap_eq_nil_iff.mpr
      (fun step member => Step.selects_eq_none (unconcerned step member))
  rw [lastSelected, none, List.getLast?_nil]

/-- Writing union members selects them, whatever else happens between the operations, exactly
where the accessors at the end are for the member that is selected already. Where the sources
of copies are acyclic the operations come to an end.
-/
theorem writing_selects_iff (schema : UnionSchema) {b : StructBuilder}
    (large : schema.dataWordCount.toNat ≤ b.dataWords) {before : MessageBuilder}
    (valid : before.Valid) (allocated : b.Allocated before) (steps : List (Step schema b))
    : (∀ after, RunsTo steps before after →
        (WritingSelects steps before after ↔ AccessorsFollow steps before))
      ∧ ((∀ step ∈ steps, step.Acyclic) → ∃ after, RunsTo steps before after) := by
  refine ⟨fun after ran => ?_, fun acyclic => exists_runsTo acyclic before⟩
  obtain ⟨fuel, ran⟩ := ran
  have selection := runSteps_which large valid allocated (ran fuel (Nat.le_refl _))
  constructor
  · intro selects m last
    rw [← selection]
    exact selects.selected m last
  · intro follow
    refine { selected := fun m last => ?_, others := fun unconcerned => ?_ }
    · rw [selection]
      exact follow m last
    · rw [selection, lastSelected_eq_none unconcerned, Option.none_or]

/-- A number, a pointer and a group in a union, with the number of the group in the first
member's place.
-/
def choiceSchema : UnionSchema where
  discriminantOffset := 1
  fields :=
    [ ⟨0, .slot (.scalar .uint16) 0 (0 : UInt16)⟩, ⟨1, .pointer .anyPointer 0⟩, ⟨2, .group⟩ ]
  dataWordCount := 1
  pointerCount := 1
  groups := [⟨0, [⟨noDiscriminant, .slot (.scalar .uint16) 0 (0 : UInt16)⟩]⟩]
  hasUnion := by decide
  distinct := by decide
  discriminantInside := by simp [StructNode.unionFields]
  inside := by simp [FieldType.Inside, SlotType.width, Scalar.width]
  apart := by simp [FieldType.Apart, SlotType.width, Scalar.width]
  discriminantApart := by simp

def choiceRoot : StructBuilder × MessageBuilder :=
  choiceSchema.initRoot (initMessageBuilder 8)

/-- The number is set, then the pointer is asked for. -/
def numberThenPointer : List (Step choiceSchema choiceRoot.1) :=
  [ .own ⟨⟨0, .slot (.scalar .uint16) 0 (0 : UInt16)⟩, by simp [choiceSchema], .set (5 : UInt16)⟩,
    .own ⟨⟨1, .pointer .anyPointer 0⟩, by simp [choiceSchema], .getPointer⟩ ]

/-- The struct has the data words of its schema. -/
theorem choiceRoot_large : choiceSchema.dataWordCount.toNat ≤ choiceRoot.1.dataWords :=
  Nat.le_refl 1

/-- Its builder is valid. -/
theorem choiceRoot_valid : choiceRoot.2.Valid :=
  initStructPointer_valid (initMessageBuilder_valid 8) getRootPointer 1 1

/-- Its words are allocated. -/
theorem choiceRoot_allocated : choiceRoot.1.Allocated choiceRoot.2 :=
  initStructPointer_allocated (initMessageBuilder_valid 8) getRootPointer 1 1

/-- Witness: the number and then the pointer. -/
theorem writing_selects_iff_numberThenPointer
    : (∀ after, RunsTo numberThenPointer choiceRoot.2 after →
        (WritingSelects numberThenPointer choiceRoot.2 after
          ↔ AccessorsFollow numberThenPointer choiceRoot.2))
      ∧ ((∀ step ∈ numberThenPointer, step.Acyclic) →
        ∃ after, RunsTo numberThenPointer choiceRoot.2 after) :=
  writing_selects_iff choiceSchema choiceRoot_large choiceRoot_valid choiceRoot_allocated
    numberThenPointer

/-- The number stays selected when the pointer is handed out. -/
theorem not_writing_selects
    : ¬ ∀ (schema : UnionSchema) (b : StructBuilder) (steps : List (Step schema b))
        (before after : MessageBuilder), schema.dataWordCount.toNat ≤ b.dataWords →
          before.Valid → b.Allocated before → RunsTo steps before after →
            WritingSelects steps before after := by
  intro always
  have selects := always choiceSchema choiceRoot.1 numberThenPointer choiceRoot.2
    (setUInt16 choiceRoot.1 0 5 (setUInt16 choiceRoot.1 2 0 choiceRoot.2))
    choiceRoot_large choiceRoot_valid choiceRoot_allocated ⟨0, fun _ _ => rfl⟩
  have pointer := congrArg (Option.map StructField.discriminantValue)
    (selects.selected ⟨1, .pointer .anyPointer 0⟩ rfl)
  exact absurd pointer (by decide)

end Capnp.Plugin
