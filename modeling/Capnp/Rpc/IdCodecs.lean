import Capnp.Library.FixedWidth
import Capnp.Rpc.HandlerAction
import Capnp.Runtime.MessageBytes
import Mathlib.Logic.Equiv.Defs

/-! The ids of a capability table and the fields of a pipeline path as bytes. Lean writes and
reads them in loops of its own, checked and unchecked, and the bridge reads them in others.
-/

namespace Capnp

open ByteString

-----------------------------------------------------------------------------------------
-- The codecs of Lean and the decoders of the bridge
-----------------------------------------------------------------------------------------

namespace PipelinePath

def toBytes (ops : List UInt16) : List UInt8 :=
  ops.foldl (fun out (op : UInt16) => out ++ [op.toUInt8] ++ [(op >>> 8).toUInt8]) []

def ofBytes (bytes : List UInt8) : List UInt16 :=
  readEach bytes.length 2 2
    (fun i =>
      let lo := (readByteArray bytes i).toUInt16
      let hi := (readByteArray bytes (i + 1)).toUInt16
      lo + hi <<< 8)
    0 []

def ofBytesChecked (bytes : List UInt8) : Except String (List UInt16) :=
  if bytes.length % 2 != 0 then .error "pipeline op payload must be a multiple of 2 bytes"
  else .ok (ofBytes bytes)

end PipelinePath

namespace CapTable

def ofBytes (bytes : List UInt8) : CapTable :=
  { caps := readEach bytes.length 4 4 (readUInt32LE bytes) 0 [] }

def ofBytesChecked (bytes : List UInt8) : Except String CapTable :=
  if bytes.length % 4 != 0 then .error "capability table payload must be a multiple of 4 bytes"
  else .ok (ofBytes bytes)

end CapTable

namespace Rpc

def readUint16Le (b0 b1 : UInt8) : UInt16 :=
  b0.toUInt16 ||| b1.toUInt16 <<< 8

def decodePipelineOps (data : List UInt8) : Except String (List UInt16) :=
  if data.length % 2 ≠ 0 then
    .error "RPC pipeline ops payload must be a multiple of 2 bytes"
  else
    .ok
      (readEach data.length 1 2 (fun i => readUint16Le (data.getD i 0) (data.getD (i + 1) 0)) 0 [])

-----------------------------------------------------------------------------------------
-- What the loops read and write
-----------------------------------------------------------------------------------------

/-- The ids of a capability table take four bytes each. -/
theorem capTable_fixedWidth : FixedWidth 4 uint32Le readUInt32LE where
  length := length_uint32Le
  stands_iff := fun _ _ _ => standsAt_uint32Le

/-- The fields of a pipeline path take two bytes each. -/
theorem pipelinePath_fixedWidth
    : FixedWidth 2 uint16Le (fun bytes i => readUint16Le (bytes.getD i 0) (bytes.getD (i + 1) 0))
    where
  length := length_uint16Le
  stands_iff := fun _ _ _ => standsAt_uint16Le

/-- The loop writes the ids one behind the other. -/
theorem capTable_toBytes_eq (t : CapTable) : t.toBytes = t.caps.flatMap uint32Le :=
  List.foldl_append_eq_append

/-- So does the loop over a path. -/
theorem pipelinePath_toBytes_eq (ops : List UInt16)
    : PipelinePath.toBytes ops = ops.flatMap uint16Le := by
  simp only [PipelinePath.toBytes, List.append_assoc, List.cons_append, List.nil_append]
  exact List.foldl_append_eq_append

/-- The ids are read back from their bytes, by induction on them. -/
theorem capTableIds_flatMap (capIds : List UInt32)
    : capTableIds (capIds.flatMap uint32Le) = capIds := by
  induction capIds with
  | nil => rfl
  | cons capId rest ih =>
      have first := ofUint32Le_uint32Le capId
      simp only [List.flatMap_cons, uint32Le, List.cons_append, List.nil_append, capTableIds, ih]
      exact congrArg (· :: rest) first

/-- On whole numbers of ids, the recursion of `capTableIds` is the offset loop of the source. -/
theorem capTableIds_eq_readEach {data : List UInt8} (multiple : data.length % 4 = 0)
    : capTableIds data = readEach data.length 1 4 (readUInt32LE data) 0 [] := by
  obtain ⟨capIds, rfl⟩ := capTable_fixedWidth.exists_eq_flatMap multiple
  rw [capTableIds_flatMap, capTable_fixedWidth.readEach_flatMap (by omega)]

/-- The bridge decodes the bytes of ids. -/
theorem decodeCapTable_flatMap (capIds : List UInt32)
    : decodeCapTable (capIds.flatMap uint32Le) = .ok capIds := by
  rw [decodeCapTable, capTable_fixedWidth.length_flatMap, if_neg (by omega),
    capTableIds_flatMap]

-----------------------------------------------------------------------------------------
-- The laws of both codecs
-----------------------------------------------------------------------------------------

/-- Writing and reading are inverse where the size is a multiple of the width, the checked
reader rejects exactly the other sizes, and the bridge decodes what it accepts to the same ids.
-/
structure IdCodec {α ι : Type*} (width : Nat) (ids : α → List ι) (toBytes : α → List UInt8)
    (ofBytes : List UInt8 → α) (ofBytesChecked : List UInt8 → Except String α)
    (decode : List UInt8 → Except String (List ι))
    : Prop where
  ofBytes_toBytes : ∀ value, ofBytes (toBytes value) = value
  ofBytesChecked_toBytes : ∀ value, ofBytesChecked (toBytes value) = .ok value
  toBytes_ofBytes : ∀ bytes, bytes.length % width = 0 → toBytes (ofBytes bytes) = bytes
  toBytes_ofBytesChecked
    : ∀ bytes, bytes.length % width = 0 → (ofBytesChecked bytes).map toBytes = .ok bytes
  rejects_iff
    : ∀ bytes, (∃ reason, ofBytesChecked bytes = .error reason) ↔ bytes.length % width ≠ 0
  decode_iff
    : ∀ bytes found,
        decode bytes = .ok found ↔ ∃ value, ofBytesChecked bytes = .ok value ∧ ids value = found

/-- Both codecs are one loop over items of a fixed width, with a check of the size. -/
theorem IdCodec.of_fixedWidth {α ι : Type*} {width : Nat} [NeZero width]
    {write : ι → List UInt8} {read : List UInt8 → Nat → ι}
    (items : FixedWidth width write read) (view : α ≃ List ι) {toBytes : α → List UInt8}
    {ofBytes : List UInt8 → α} {ofBytesChecked : List UInt8 → Except String α}
    {decode : List UInt8 → Except String (List ι)} (misfit wrongSize : String)
    (written : ∀ value, toBytes value = (view value).flatMap write)
    (unchecked
      : ∀ bytes, view (ofBytes bytes) = readEach bytes.length width width (read bytes) 0 [])
    (checked
      : ∀ bytes,
          ofBytesChecked bytes
          = if bytes.length % width != 0 then .error misfit else .ok (ofBytes bytes))
    (bridge
      : ∀ bytes,
          decode bytes
          = if bytes.length % width ≠ 0 then .error wrongSize
            else .ok (readEach bytes.length 1 width (read bytes) 0 []))
    : IdCodec width view toBytes ofBytes ofBytesChecked decode := by
  have positive := NeZero.pos width
  have ofBytes_toBytes (value : α) : ofBytes (toBytes value) = value := by
    rw [← view.apply_eq_iff_eq, unchecked, written, items.readEach_flatMap (Nat.le_refl _)]
  have whole (value : α) : (toBytes value).length % width = 0 := by
    rw [written, items.length_flatMap, Nat.mul_mod_right]
  have split {bytes : List UInt8} (multiple : bytes.length % width = 0)
      : ∃ value, bytes = toBytes value := by
    obtain ⟨values, same⟩ := items.exists_eq_flatMap multiple
    exact ⟨view.symm values, by rw [written, view.apply_symm_apply, same]⟩
  have accepts (value : α) : ofBytesChecked (toBytes value) = .ok value := by
    rw [checked, whole, ofBytes_toBytes]
    rfl
  refine {
    ofBytes_toBytes := ofBytes_toBytes
    ofBytesChecked_toBytes := accepts
    toBytes_ofBytes := ?_
    toBytes_ofBytesChecked := ?_
    rejects_iff := ?_
    decode_iff := ?_
  }
  · intro bytes multiple
    obtain ⟨value, rfl⟩ := split multiple
    rw [ofBytes_toBytes]
  · intro bytes multiple
    obtain ⟨value, rfl⟩ := split multiple
    rw [accepts]
    rfl
  · intro bytes
    rcases eq_or_ne (bytes.length % width) 0 with multiple | misfits
    · simp [checked, multiple]
    · simp [checked, misfits]
  · intro bytes found
    rcases eq_or_ne (bytes.length % width) 0 with multiple | misfits
    · obtain ⟨value, rfl⟩ := split multiple
      have read : decode (toBytes value) = .ok (view value) := by
        rw [bridge, whole, if_neg (by simp), written, items.readEach_flatMap positive]
      simp [read, accepts]
    · simp [bridge, checked, misfits]

/-- The table of ids that a capability table is. -/
def capsEquiv : CapTable ≃ List UInt32 where
  toFun := CapTable.caps
  invFun := CapTable.mk
  left_inv := fun _ => rfl
  right_inv := fun _ => rfl

/-- The codecs of capability tables and of pipeline paths, and the decoders of the bridge. -/
theorem idCodecs
    : IdCodec 4 CapTable.caps CapTable.toBytes CapTable.ofBytes CapTable.ofBytesChecked
          decodeCapTable
        ∧ IdCodec 2 id PipelinePath.toBytes PipelinePath.ofBytes PipelinePath.ofBytesChecked
            decodePipelineOps := by
  constructor
  · refine .of_fixedWidth capTable_fixedWidth capsEquiv _
      "RPC capability table payload must be a multiple of 4 bytes" capTable_toBytes_eq
      (fun _ => rfl) (fun _ => rfl) (fun bytes => ?_)
    rcases eq_or_ne (bytes.length % 4) 0 with multiple | misfits
    · rw [decodeCapTable, capTableIds_eq_readEach multiple]
    · rw [decodeCapTable, if_pos misfits, if_pos misfits]
  · refine .of_fixedWidth pipelinePath_fixedWidth (Equiv.refl _) _ _ pipelinePath_toBytes_eq
      (fun bytes => ?_) (fun _ => rfl) (fun _ => rfl)
    have same (i : Nat)
        : (readByteArray bytes i).toUInt16 + (readByteArray bytes (i + 1)).toUInt16 <<< 8
          = readUint16Le (bytes.getD i 0) (bytes.getD (i + 1) 0) := add_eq_ofUint16Le _ _
    exact congrArg (fun read => readEach bytes.length 2 2 read 0 []) (funext same)

end Rpc

end Capnp
