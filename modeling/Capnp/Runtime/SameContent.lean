import Capnp.Runtime.CopyStruct
import Capnp.Runtime.DataViews
import Capnp.Runtime.Scalars

/-! What a message says at a pointer, apart from where its objects lie. Two pointers have the
same content to a depth when what the readers decode there agrees, and the pointers below
agree to one less.
-/

namespace Capnp

/-- What is decoded at a pointer. -/
inductive PointerView where
  | null
  | capability (cap : UInt32)
  | struct (r : StructReader)
  | list (d : ListPointer)

/-- A struct without words is no different from a null pointer: its own may be all zeros. -/
def AnyPointer.view (p : AnyPointer) : PointerView :=
  let w := readWord p.msg p.seg p.word
  if w == 0 then .null
  else if w &&& 3 == 3 then .capability (readCapability p)
  else
    match decodeStructPtr p with
    | some r => if r.dataWords + r.ptrCount = 0 then .null else .struct r
    | none =>
        match decodeListPtr p with
        | some d => .list d
        | none => .null

/-- The bytes of the data section. -/
def StructReader.data (r : StructReader) : List UInt8 :=
  readBytes r.msg r.seg (r.dataOff * 8) (r.dataWords * 8)

/-- The bytes of the elements, where these are neither structs nor pointers. -/
def ListPointer.data (d : ListPointer) : List UInt8 :=
  readBytes d.msg d.seg (d.startWord * 8) (listDataWords d.elemSize d.elemCount * 8)

/-- Structs with the same words of data, whose pointers are related one by one. -/
structure SameStruct (same : AnyPointer → AnyPointer → Prop) (a b : StructReader) : Prop where
  dataWords : b.dataWords = a.dataWords
  ptrCount : b.ptrCount = a.ptrCount
  data : b.data = a.data
  pointers : ∀ i < a.ptrCount, same (getPointer a i) (getPointer b i)

/-- Lists of the same elements, whose pointers are related one by one. -/
structure SameList (same : AnyPointer → AnyPointer → Prop) (a b : ListPointer) : Prop where
  elemSize : b.elemSize = a.elemSize
  elemCount : b.elemCount = a.elemCount
  structDataWords : b.structDataWords = a.structDataWords
  structPtrCount : b.structPtrCount = a.structPtrCount
  inlineComposite : b.inlineComposite = a.inlineComposite
  structs
    : a.inlineComposite = true → ∀ i < a.elemCount,
        SameStruct same (a.structReader i) (b.structReader i)
  pointers
    : a.elemSize = elemSizePointer → ∀ i < a.elemCount,
        same (a.elementPointer i) (b.elementPointer i)
  data : a.elemSize ≠ elemSizePointer → b.data = a.data

/-- What two pointers are seen as, one level deep. -/
inductive SameView (same : AnyPointer → AnyPointer → Prop) : PointerView → PointerView → Prop
  | null : SameView same .null .null
  | capability (cap : UInt32) : SameView same (.capability cap) (.capability cap)
  | struct {a b : StructReader} (agree : SameStruct same a b)
    : SameView same (.struct a) (.struct b)
  | list {a b : ListPointer} (agree : SameList same a b) : SameView same (.list a) (.list b)

/-- The pointers have the same content down to this depth. -/
def SameContent : Nat → AnyPointer → AnyPointer → Prop
  | 0, _, _ => True
  | depth + 1, a, b => SameView (SameContent depth) a.view b.view

-----------------------------------------------------------------------------------------
-- The views of a pointer
-----------------------------------------------------------------------------------------

/-- What resolves is a struct or a list, never both. -/
theorem decodeListPtr_of_decodeStructPtr {p : AnyPointer} {r : StructReader}
    (decoded : decodeStructPtr p = some r) : decodeListPtr p = none := by
  unfold decodeStructPtr at decoded
  unfold decodeListPtr
  cases resolved : resolvePointer p with
  | none => rfl
  | some target =>
      simp only [resolved] at decoded ⊢
      split_ifs at decoded with kind
      have struct : readWord target.msg target.tagSeg target.tagWord &&& 3 = 0 := by
        simpa using kind
      rw [if_pos (by rw [struct]; decide)]

/-- A null pointer leads nowhere. -/
theorem resolvePointer_of_null {p : AnyPointer} (null : readWord p.msg p.seg p.word = 0)
    : resolvePointer p = none := by
  rw [resolvePointer, null]
  rfl

/-- A capability is no object of the message. -/
theorem resolvePointer_of_capability {p : AnyPointer}
    (capability : readWord p.msg p.seg p.word &&& 3 = 3) : resolvePointer p = none := by
  have some : readWord p.msg p.seg p.word ≠ 0 := by
    intro null
    rw [null] at capability
    exact absurd capability (by decide)
  have direct : resolveDirectPointer p.msg p.seg p.word = none := by
    simp only [resolveDirectPointer, capability, beq_iff_eq, if_neg some, if_true]
  rw [resolvePointer, direct, capability, if_neg (by simpa using some), if_pos (by decide)]

/-- A pointer that leads nowhere is neither a struct nor a list. -/
theorem decode_of_resolve_none {p : AnyPointer} (absent : resolvePointer p = none)
    : decodeStructPtr p = none ∧ decodeListPtr p = none := by
  simp only [decodeStructPtr, decodeListPtr, absent, and_self]

/-- The list that the readers of lists find is the one in view. -/
theorem decodeListPtr_eq_some_iff {p : AnyPointer} {d : ListPointer}
    : decodeListPtr p = some d ↔ p.view = .list d := by
  unfold AnyPointer.view
  simp only [beq_iff_eq]
  split_ifs with null capability
  · simp [(decode_of_resolve_none (resolvePointer_of_null null)).2]
  · simp [(decode_of_resolve_none (resolvePointer_of_capability capability)).2]
  · cases struct : decodeStructPtr p with
    | some r =>
        rw [decodeListPtr_of_decodeStructPtr struct]
        dsimp only
        split_ifs <;> simp
    | none =>
        cases decodeListPtr p <;> simp

/-- A struct with any words is the one in view. -/
theorem decodeStructPtr_eq_some_iff {p : AnyPointer} {r : StructReader}
    (words : r.dataWords + r.ptrCount ≠ 0)
    : decodeStructPtr p = some r ↔ p.view = .struct r := by
  unfold AnyPointer.view
  simp only [beq_iff_eq]
  split_ifs with null capability
  · simp [(decode_of_resolve_none (resolvePointer_of_null null)).1]
  · simp [(decode_of_resolve_none (resolvePointer_of_capability capability)).1]
  · cases struct : decodeStructPtr p with
    | some r' =>
        dsimp only
        split_ifs with empty
        · simp only [Option.some.injEq, iff_false]
          rintro rfl
          exact words empty
        · simp
    | none =>
        cases decodeListPtr p <;> simp

/-- A zero word is seen as null. -/
theorem view_eq_null_of_zero {p : AnyPointer} (null : readWord p.msg p.seg p.word = 0)
    : p.view = .null := by
  rw [AnyPointer.view, null]
  rfl

/-- A struct without words is seen as null. -/
theorem view_eq_null_of_empty {p : AnyPointer} {r : StructReader}
    (decoded : decodeStructPtr p = some r) (empty : r.dataWords + r.ptrCount = 0)
    : p.view = .null := by
  unfold AnyPointer.view
  simp only [beq_iff_eq, decoded, if_pos empty]
  split_ifs with null capability
  · rfl
  · have absent := (decode_of_resolve_none (resolvePointer_of_capability capability)).1
    rw [absent] at decoded
    cases decoded
  · rfl

/-- So is a pointer that leads nowhere, unless it is a capability. -/
theorem view_eq_null_of_absent {p : AnyPointer} (absent : resolvePointer p = none)
    (notCapability : (readWord p.msg p.seg p.word &&& 3 == 3) = false) : p.view = .null := by
  obtain ⟨noStruct, noList⟩ := decode_of_resolve_none absent
  simp only [AnyPointer.view, noStruct, noList, notCapability, Bool.false_eq_true, if_false,
    ite_self]

-----------------------------------------------------------------------------------------
-- What readers see of the same content
-----------------------------------------------------------------------------------------

variable {a b : AnyPointer}

/-- A list on one side is a list on the other. -/
theorem SameContent.decodeListPtr {depth : Nat} (same : SameContent (depth + 1) a b)
    : (decodeListPtr a = none ∧ decodeListPtr b = none)
      ∨ ∃ d d', decodeListPtr a = some d ∧ decodeListPtr b = some d'
          ∧ SameList (SameContent depth) d d' := by
  have absent {p : AnyPointer} (other : ∀ d, p.view ≠ .list d) : Capnp.decodeListPtr p = none := by
    rw [Option.eq_none_iff_forall_ne_some]
    exact fun d decoded => other d (decodeListPtr_eq_some_iff.mp decoded)
  have same : SameView (SameContent depth) a.view b.view := same
  generalize left : a.view = view, right : b.view = view' at same
  cases same with
  | null | capability | struct =>
      refine .inl ⟨absent ?_, absent ?_⟩
      · simp [left]
      · simp [right]
  | list agree =>
      exact .inr ⟨_, _, decodeListPtr_eq_some_iff.mpr left, decodeListPtr_eq_some_iff.mpr right,
        agree⟩

/-- The bytes of a list of bytes are the first of its words'. -/
theorem ListPointer.take_data {d : ListPointer} (bytes : d.elemSize = elemSizeByte)
    : d.data.take d.elemCount = readBytes d.msg d.seg (d.startWord * 8) d.elemCount := by
  apply take_readBytes
  rw [bytes]
  show d.elemCount ≤ (d.elemCount + 7) / 8 * 8
  omega

/-- Pointers of the same content have the same data. -/
theorem SameContent.readData (same : SameContent 1 a b) : readData b = readData a := by
  rcases same.decodeListPtr with ⟨left, right⟩ | ⟨d, d', left, right, agree⟩
  · simp only [Capnp.readData, left, right]
  · simp only [Capnp.readData, left, right, agree.elemSize, agree.inlineComposite]
    split_ifs with other
    · rfl
    · have bytes : d.elemSize = elemSizeByte := by
        simp only [Bool.or_eq_true, bne_iff_ne, not_or, Decidable.not_not] at other
        exact other.2
      rw [← ListPointer.take_data bytes, ← ListPointer.take_data (agree.elemSize.trans bytes),
        agree.elemCount, agree.data (by rw [bytes]; decide)]

/-- They have the same text as well. -/
theorem SameContent.readText (same : SameContent 1 a b) : readText b = readText a := by
  rw [Capnp.readText, Capnp.readText, same.readData]

end Capnp
