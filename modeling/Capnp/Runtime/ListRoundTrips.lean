import Capnp.Runtime.CheckedViews
import Capnp.Runtime.CleanCopies
import Capnp.Runtime.ObjectRoundTrips

/-! What the writers of lists, data and texts write is what the readers read. Each value comes
back as the one that its stored bits stand for, and a text as itself.
-/

namespace Capnp

open BitFields ByteString FixedWidth MessageBuilder

-----------------------------------------------------------------------------------------
-- Lists of scalars
-----------------------------------------------------------------------------------------

section Lists

variable {α : Type*} {chunks : List (List α)} {width : Nat}

/-- Chunks of one width, one behind the other. -/
theorem length_flatten (each : ∀ chunk ∈ chunks, chunk.length = width)
    : chunks.flatten.length = chunks.length * width := by
  have lengths : chunks.map List.length = List.replicate chunks.length width := by
    rw [List.eq_replicate_iff]
    exact ⟨List.length_map _, fun length member => by
      obtain ⟨chunk, inside, rfl⟩ := List.mem_map.mp member
      exact each chunk inside⟩
  rw [List.length_flatten, lengths, List.sum_replicate_nat]

/-- A place in a list of chunks of one length. -/
theorem getD_flatten (each : ∀ chunk ∈ chunks, chunk.length = width) (i : Nat) {j : Nat}
    (inside : j < width)
    (default : α)
    : chunks.flatten.getD (i * width + j) default = (chunks.getD i []).getD j default := by
  induction chunks generalizing i with
  | nil => simp
  | cons chunk rest ih =>
      have length := each chunk List.mem_cons_self
      have remaining := ih (fun other member => each other (List.mem_cons_of_mem _ member))
      cases i with
      | zero =>
          rw [Nat.zero_mul, Nat.zero_add, List.flatten_cons, List.getD_append _ _ _ _ (by omega)]
          rfl
      | succ i =>
          have place : (i + 1) * width + j - chunk.length = i * width + j := by
            rw [length, Nat.add_mul, Nat.one_mul]
            omega
          have behind : chunk.length ≤ (i + 1) * width + j := by
            rw [length, Nat.succ_mul]
            omega
          rw [List.flatten_cons, List.getD_append_right _ _ _ _ behind, place, remaining]
          rfl

/-- Assigning every element of an array. -/
theorem foldl_set_range (value : Nat → α) (items : List α)
    : (List.range items.length).foldl (fun items i => items.set i (value i)) items
      = (List.range items.length).map value := by
  have upTo (n : Nat) (k : Nat)
      : ((List.range n).foldl (fun items i => items.set i (value i)) items)[k]?
        = if k < n ∧ k < items.length then some (value k) else items[k]? := by
    induction n with
    | zero =>
        rw [if_neg (by omega)]
        rfl
    | succ n ih =>
        have length
            : ((List.range n).foldl (fun items i => items.set i (value i)) items).length
              = items.length := by
          clear ih
          induction n with
          | zero => rfl
          | succ n ih => simpa [List.range_succ, List.foldl_append] using ih
        rw [List.range_succ, List.foldl_append, List.foldl_cons, List.foldl_nil,
          List.getElem?_set, length, ih]
        split_ifs <;> first | rfl | omega | simp_all
  apply List.ext_getElem?
  intro k
  rw [upTo, List.getElem?_map]
  by_cases inside : k < items.length
  · rw [if_pos ⟨inside, inside⟩, List.getElem?_range inside]
    rfl
  · rw [if_neg (fun both => inside both.2), List.getElem?_eq_none (Nat.le_of_not_lt inside),
      List.getElem?_eq_none (by simpa using inside)]
    rfl

/-- A list by its elements. -/
theorem map_getD_range {β : Type*} (f : α → β) (items : List α) (default : α)
    : (List.range items.length).map (fun i => f (items.getD i default)) = items.map f := by
  apply List.ext_getElem (by simp)
  intro i left right
  have inside : i < items.length := by simpa using right
  rw [List.getElem_map, List.getElem_map, List.getElem_range, List.getD_eq_getElem _ _ inside]

end Lists

namespace Scalar

def writeList (s : Scalar) (p : AnyPointerBuilder) (vals : List s.Value)
    : MessageBuilder → MessageBuilder :=
  match s with
  | .bool => writeListBool p vals
  | .int8 => writeListInt8 p vals
  | .uint8 => writeListUInt8 p vals
  | .int16 => writeListInt16 p vals
  | .uint16 => writeListUInt16 p vals
  | .int32 => writeListInt32 p vals
  | .uint32 => writeListUInt32 p vals
  | .int64 => writeListInt64 p vals
  | .uint64 => writeListUInt64 p vals
  | .float32 => writeListFloat32 p vals
  | .float64 => writeListFloat64 p vals

variable {s : Scalar}

/-- Apart from lists of booleans, a list of scalars is written as the bytes of its elements. -/
theorem writeList_eq_writeListBytes (bytes : s ≠ .bool) (p : AnyPointerBuilder)
    (vals : List s.Value)
    : s.writeList p vals
      = writeListBytes p s.elemSize (vals.map (fun v => s.wire (s.toBits v))) := by
  cases s with
  | bool => exact absurd rfl bytes
  | uint8 | uint16 | uint32 | uint64 => rfl
  | _ => exact congrArg (writeListBytes p _) (List.map_map ..)

/-- There are the bits of every element. -/
theorem length_listBits (lb : ListBuilder) (st : MessageBuilder)
    : (s.listBits lb st).length = lb.elemCount := by
  simp [listBits]

variable {st : MessageBuilder}

/-- The bytes of the values, one value after the other. -/
def wires (s : Scalar) (vals : List s.Value) : List UInt8 :=
  (vals.map (fun v => s.wire (s.toBits v))).flatten

/-- Each value has the same number of bytes. -/
theorem exists_byteWidth (bytes : s ≠ .bool) (vals : List s.Value)
    : ∃ width, width * 8 = s.width
        ∧ ∀ chunk ∈ vals.map (fun v => s.wire (s.toBits v)), chunk.length = width := by
  refine ⟨_, length_wire bytes 0, fun chunk member => ?_⟩
  obtain ⟨v, -, rfl⟩ := List.mem_map.mp member
  have first := length_wire bytes 0
  have length := length_wire bytes (s.toBits v)
  omega

/-- The bytes of a list fill its words, up to the padding. -/
theorem length_wires (bytes : s ≠ .bool) (vals : List s.Value)
    : (s.wires vals).length * 8 = vals.length * s.width
      ∧ (s.wires vals).length ≤ listDataWords s.elemSize vals.length * 8 := by
  have total : (s.wires vals).length * 8 = vals.length * s.width := by
    obtain ⟨width, isWidth, each⟩ := exists_byteWidth bytes vals
    rw [wires, length_flatten each, List.length_map, Nat.mul_assoc, isWidth]
  have room : vals.length * s.width ≤ listDataWords s.elemSize vals.length * 64 := by
    cases vals with
    | nil => exact Nat.zero_mul _ ▸ Nat.zero_le _
    | cons => exact s.element_fits (Nat.lt_succ_self _)
  exact ⟨total, by omega⟩

/-- The bytes of a value are where its element is. -/
theorem getD_wires (bytes : s ≠ .bool) {vals : List s.Value} {i j : Nat} (inside : i < vals.length)
    (inElement : j * 8 < s.width)
    : (s.wires vals).getD (i * s.width / 8 + j) 0 = (s.wire (s.toBits vals[i])).getD j 0 := by
  obtain ⟨width, isWidth, each⟩ := exists_byteWidth bytes vals
  have place : i * s.width / 8 = i * width := by
    rw [← isWidth, ← Nat.mul_assoc, Nat.mul_div_cancel _ (by decide)]
  have element
      : (vals.map (fun v => s.wire (s.toBits v))).getD i [] = s.wire (s.toBits vals[i]) := by
    rw [List.getD_eq_getElem _ _ (by simpa using inside), List.getElem_map]
  rw [place, wires, getD_flatten each i (by omega), element]

/-- The bytes of the elements, one after the other, are the elements. -/
theorem listBits_writeBytesAt (valid : st.Valid) (bytes : s ≠ .bool) {lb : ListBuilder}
    {vals : List s.Value} (count : lb.elemCount = vals.length) (size : lb.elemSize = s.elemSize)
    (allocated : lb.startWord + listDataWords lb.elemSize lb.elemCount ≤ st.used lb.seg)
    : s.listBits lb (writeBytesAt lb.seg (lb.startWord * 8) (s.wires vals) st)
      = vals.map s.toBits := by
  obtain ⟨total, room⟩ := length_wires bytes vals
  rw [size, count] at allocated
  apply List.ext_getElem (by simp [listBits, count])
  intro i left right
  have inside : i < vals.length := by simpa using right
  simp only [listBits, List.getElem_map, List.getElem_range]
  rw [eq_comm, eq_slice_iff]
  intro j inElement
  have upTo : (i + 1) * s.width ≤ vals.length * s.width := Nat.mul_le_mul_right _ inside
  rw [Nat.add_mul, Nat.one_mul] at upTo
  have inByte : j % 8 < 8 := Nat.mod_lt _ (by decide)
  have whole : i * s.width % 8 = 0 := by
    rw [← length_wire bytes 0, ← Nat.mul_assoc, Nat.mul_mod_left]
  have place
      : (lb.startWord * 64 + i * s.width + j) / 8 - lb.startWord * 8
        = i * s.width / 8 + j / 8 := by
    omega
  have bit : (lb.startWord * 64 + i * s.width + j) % 8 = j % 8 := by omega
  rw [bitAt_writeBytesAt valid (by omega), if_pos ⟨rfl, by omega, by omega⟩, place, bit,
    getD_wires bytes inside (by omega), testBit_wire bytes _ (by omega) inByte, Nat.div_add_mod]

/-- Setting an element that is there sets its bit. -/
theorem listSetBool_inside {l : ListBuilder} {i : Nat} (inside : i < l.elemCount)
    (size : l.elemSize = elemSizeBit) (v : Bool) (st : MessageBuilder)
    : listSetBool l i v st = setBitB l.seg (l.startWord * 64 + i) v st := by
  rw [listSetBool, listSetWith, if_pos (by simp [inside, size])]

/-- The bytes of all elements are written at once behind the new list's pointer. -/
theorem writeList_eq_writeBytesAt (s : Scalar) (bytes : s ≠ .bool) (p : AnyPointerBuilder)
    (vals : List s.Value) (st : MessageBuilder)
    : s.writeList p vals st
      = writeBytesAt (initListPointer p s.elemSize vals.length st).1.seg
          ((initListPointer p s.elemSize vals.length st).1.startWord * 8) (s.wires vals)
          (initListPointer p s.elemSize vals.length st).2 := by
  have count : (vals.map (fun v => s.wire (s.toBits v))).length = vals.length := List.length_map _
  rw [writeList_eq_writeListBytes bytes, writeListBytes, count]
  rfl

/-- The setters that write a list of booleans, one after the other. -/
def boolSets (vals : List Bool) : List (Nat × Scalar.bool.Value) :=
  (List.range vals.length).map (fun i => (i, vals.getD i false))

/-- A list of booleans is written by setting its elements one by one. -/
theorem writeListBool_eq_listSets (p : AnyPointerBuilder) (vals : List Bool) (st : MessageBuilder)
    : writeListBool p vals st
      = (boolSets vals).foldl
          (fun bits set =>
            Scalar.bool.listSet (initListPointer p elemSizeBit vals.length st).1 set.1 set.2 bits)
          (initListPointer p elemSizeBit vals.length st).2 := by
  rw [boolSets, List.foldl_map]
  apply List.foldl_ext
  intro bits i inside
  exact (listSetBool_inside (l := (initListPointer p elemSizeBit vals.length st).1)
    (List.mem_range.mp inside) rfl _ bits).symm

/-- Setting every element leaves the given bits. -/
theorem foldl_boolSets (vals : List Bool) {bits : List (BitVec (Scalar.width .bool))}
    (length : bits.length = vals.length)
    : (boolSets vals).foldl (fun bits set => bits.set set.1 (Scalar.bool.toBits set.2)) bits
      = vals.map Scalar.bool.toBits := by
  have all := foldl_set_range (fun i => Scalar.bool.toBits (vals.getD i false)) bits
  rw [length] at all
  rw [boolSets, List.foldl_map]
  exact all.trans (map_getD_range Scalar.bool.toBits vals false)

/-- A new list is filled with the bits of the values. -/
theorem writeList_fills (s : Scalar) (valid : st.Valid) (p : AnyPointerBuilder)
    (vals : List s.Value)
    : let lb := (initListPointer p s.elemSize vals.length st).1
      Writes (Behind lb.seg lb.startWord) (initListPointer p s.elemSize vals.length st).2
        (s.writeList p vals st)
      ∧ s.listBits lb (s.writeList p vals st) = vals.map s.toBits := by
  intro lb
  have start := (initListPointer_writes valid p s.elemSize vals.length).valid
  have allocated := initListPointer_owned valid p s.elemSize_lt vals.length
  by_cases bytes : s = .bool
  · subst bytes
    have ran : Scalar.bool.writeList p vals st = _ := writeListBool_eq_listSets p vals st
    obtain ⟨writes, bits⟩ :=
      listSets_refine (s := .bool) (l := lb) start rfl allocated (boolSets vals)
    rw [ran]
    exact ⟨writes.widen (fun cell _ data => ⟨data.1, data.2.1⟩),
      bits.trans (foldl_boolSets vals (length_listBits lb _))⟩
  · rw [s.writeList_eq_writeBytesAt bytes]
    exact ⟨writeBytesAt_behind start .., listBits_writeBytesAt start bytes rfl rfl allocated⟩

end Scalar

-----------------------------------------------------------------------------------------
-- Contents of pointers
-----------------------------------------------------------------------------------------

/-- A checked reader accepts what is there, but for an object without words: at the end of its
segment it has no place.
-/
def Accepts {α : Type} (result : Except String α) (value : α) (empty : Prop) : Prop :=
  result = .ok value ∨ empty ∧ result = .error "pointer target out of bounds"

/-- What the readers find at a pointer, from which no chain of pointers is infinite. -/
structure ValueAt {α : Type} (read : AnyPointer → α) (readChecked : AnyPointer → Except String α)
    (p : AnyPointer) (value : α) (empty : Prop) : Prop where
  plain : read p = value
  checked : Accepts (readChecked p) value empty
  acyclic : p.Acyclic

def DataAt (p : AnyPointer) (data : List UInt8) : Prop :=
  ValueAt readData readDataChecked p data (data = [])

def TextAt (p : AnyPointer) (text : String) : Prop :=
  ValueAt readText readTextChecked p text False

def CapabilityAt (p : AnyPointer) (cap : UInt32) : Prop :=
  ValueAt readCapability readCapabilityChecked p cap False

/-- The pointers of a list lead each to its value. -/
def ListAt {α : Type} (valueAt : AnyPointer → α → Prop) (p : AnyPointer) (vals : List α) : Prop :=
  List.Forall₂ valueAt (readListPointer p) vals
  ∧ Accepts (readListPointerChecked p) (readListPointer p) (vals = [])
  ∧ p.Acyclic

/-- What the runtime writes to a pointer at once. -/
inductive Content where
  | capability (index : UInt32)
  | data (bytes : List UInt8)
  | text (chars : String)
  | voids (vals : List Unit)
  | scalars (s : Scalar) (vals : List s.Value)
  | capabilities (vals : List UInt32)
  | datas (vals : List (List UInt8))
  | texts (vals : List String)

namespace Content

def write (content : Content) (p : AnyPointerBuilder) : MessageBuilder → MessageBuilder :=
  match content with
  | .capability index => writeCapability p index
  | .data bytes => writeData p bytes
  | .text chars => writeText p chars
  | .voids vals => writeListVoid p vals
  | .scalars s vals => s.writeList p vals
  | .capabilities vals => writeListCapability p vals
  | .datas vals => writeListData p vals
  | .texts vals => writeListText p vals

/-- The numbers of elements have 29 bits; a text has one byte more. -/
def Fits : Content → Prop
  | .capability _ => True
  | .data bytes => bytes.length < 2 ^ 29
  | .text chars => chars.toUTF8.toList.length + 1 < 2 ^ 29
  | .voids vals => vals.length < 2 ^ 29
  | .scalars _ vals => vals.length < 2 ^ 29
  | .capabilities vals => vals.length < 2 ^ 29
  | .datas vals => vals.length < 2 ^ 29 ∧ ∀ bytes ∈ vals, bytes.length < 2 ^ 29
  | .texts vals => vals.length < 2 ^ 29 ∧ ∀ chars ∈ vals, chars.toUTF8.toList.length + 1 < 2 ^ 29

/-- What the readers, plain and checked, find behind a pointer. -/
def ReadFrom (content : Content) (p : AnyPointer) : Prop :=
  match content with
  | .capability index => CapabilityAt p index
  | .data bytes => DataAt p bytes
  | .text chars => TextAt p chars
  | .voids vals => ValueAt readListVoid readListVoidChecked p vals True
  | .scalars s vals =>
      ValueAt (ListKind.scalar s).read (ListKind.scalar s).readChecked p (vals.map s.stored)
        (vals = [])
  | .capabilities vals => readListCapability p = vals ∧ ListAt CapabilityAt p vals
  | .datas vals => readListData p = vals ∧ ListAt DataAt p vals
  | .texts vals => readListText p = vals ∧ ListAt TextAt p vals

end Content

section Acyclic

/-- A list without pointers leads nowhere. -/
theorem ListFound.acyclic {p : AnyPointerBuilder} {lb : ListBuilder} {filled later : MessageBuilder}
    (found : ListFound p lb filled later) (plain : lb.inlineComposite = false)
    (noPointers : lb.elemSize ≠ elemSizePointer) : (p.reader later).Acyclic := by
  apply acyclic_of_pointers
  have none : (lb.reader later).pointers = [] := by
    rw [ListPointer.pointers, if_neg (by simp [ListBuilder.reader, plain]),
      if_neg (show ¬ (lb.reader later).elemSize = elemSizePointer from noPointers)]
  rw [pointers_of_decodeListPtr found.decoded, none]
  exact fun _ member => absurd member List.not_mem_nil

/-- A list of pointers is acyclic when all that they lead to is. -/
theorem ListFound.acyclic_of_pointers {p : AnyPointerBuilder} {lb : ListBuilder}
    {filled later : MessageBuilder} (found : ListFound p lb filled later)
    (plain : lb.inlineComposite = false) (isPointer : lb.elemSize = elemSizePointer)
    (below : ∀ pointer ∈ readListPointer (p.reader later), pointer.Acyclic)
    : (p.reader later).Acyclic := by
  obtain ⟨read, -, elements⟩ := found.reads .pointer plain isPointer
  have all : (lb.reader later).pointers = readListPointer (p.reader later) := by
    rw [ListPointer.pointers, if_neg (by simp [ListBuilder.reader, plain]),
      if_pos (show (lb.reader later).elemSize = elemSizePointer from isPointer)]
    exact (read.trans elements).symm
  refine Capnp.acyclic_of_pointers ?_
  rw [pointers_of_decodeListPtr found.decoded, all]
  exact below

end Acyclic

section Reading

variable {st : MessageBuilder} {p : AnyPointerBuilder}

/-- A checked reader accepts a list that has words, wherever it lies. -/
theorem accepts_acceptedAt {α : Type} {st : MessageBuilder} {place : Nat × Nat} {empty : Prop}
    (value : α) (words : ¬ empty → place.2 < st.used place.1)
    : Accepts (acceptedAt st place value) value empty := by
  unfold Accepts acceptedAt
  by_cases inside : place.2 < st.used place.1
  · exact .inl (if_pos inside)
  · exact .inr ⟨not_not.mp (fun some => inside (words some)), if_neg inside⟩

/-- An element takes words. -/
theorem listDataWords_pos (s : Scalar) {elemCount : Nat} (some : 0 < elemCount)
    : 0 < listDataWords s.elemSize elemCount := by
  have fits := s.element_fits some
  have wide : 0 < s.width := by cases s <;> decide
  omega

/-- A list of scalars is read back, whatever else is written since. -/
theorem Scalar.writeList_settles (s : Scalar) (valid : st.Valid) (owned : store.owned st p.cell)
    {vals : List s.Value} (small : vals.length < 2 ^ 29)
    : store.Settles (fun cell => cell = p.cell) st (s.writeList p vals st)
        (fun later =>
          later.Valid → later.Addressable →
            (Content.scalars s vals).ReadFrom (p.reader later)) := by
  obtain ⟨fills, bits⟩ := s.writeList_fills valid p vals
  have found := initListPointer_settles valid owned s.elemSize_lt small fills
  have allocated := initListPointer_owned valid p s.elemSize_lt vals.length
  intro later effect valid' addressable
  have foundLater := found later effect valid' addressable
  obtain ⟨plain, checked⟩ := s.readList_of_found foundLater valid' rfl rfl
    (used_le_of_effect fills.effect allocated)
  rw [bits, List.map_map] at plain checked
  refine ⟨plain, ?_, foundLater.acyclic rfl s.elemSize_ne_pointer⟩
  rw [checked]
  refine accepts_acceptedAt _ (fun some => ?_)
  have positive := listDataWords_pos s (List.length_pos_iff.mpr some)
  exact Nat.lt_of_lt_of_le (Nat.lt_add_of_pos_right positive) foundLater.room

/-- A list of voids is read back by its length. -/
theorem writeListVoid_settles (valid : st.Valid) (owned : store.owned st p.cell)
    {vals : List Unit} (small : vals.length < 2 ^ 29)
    : store.Settles (fun cell => cell = p.cell) st (writeListVoid p vals st)
        (fun later =>
          later.Valid → later.Addressable → (Content.voids vals).ReadFrom (p.reader later)) := by
  have start := initListPointer_writes valid p elemSizeVoid vals.length
  intro later effect valid' addressable
  have found := initListPointer_settles valid owned (by decide) small ⟨start.valid, .refl _ _⟩
    later effect valid' addressable
  obtain ⟨read, checked, elements⟩ := found.reads .void rfl rfl
  have elements : ListKind.void.elements _ = vals :=
    elements.trans (List.ext_getElem (by rw [List.length_map, List.length_range]; rfl)
      (fun _ _ _ => rfl))
  rw [elements] at read checked
  refine ⟨read, ?_, found.acyclic rfl (show elemSizeVoid ≠ elemSizePointer by decide)⟩
  show Accepts (ListKind.void.readChecked _) vals True
  rw [checked]
  exact accepts_acceptedAt _ (fun some => absurd trivial some)

/-- Data is a list of bytes. -/
theorem readData_eq (p : AnyPointer) : readData p = (ListKind.scalar .uint8).read p := by
  rw [ListKind.read_eq, readData]
  cases decodeListPtr p with
  | none => rfl
  | some d => rfl

/-- Data is written as a list of bytes. -/
theorem writeData_eq (p : AnyPointerBuilder) (data : List UInt8)
    : writeData p data = Scalar.uint8.writeList p data := by
  funext st
  have bytes : (data.map (fun v => [v])).flatten = data := by
    rw [← List.flatMap_def, List.flatMap_singleton']
  show writeData p data st = writeListBytes p elemSizeByte (data.map (fun v => [v])) st
  rw [writeListBytes, bytes, List.length_map]
  rfl

/-- The checked readers of data and of bytes differ in one message. -/
theorem readDataChecked_eq {p : AnyPointer}
    (kind : (ListKind.scalar .uint8).readChecked p ≠ .error "uint8 list kind mismatch")
    : readDataChecked p = (ListKind.scalar .uint8).readChecked p := by
  rw [ListKind.readChecked_eq] at kind ⊢
  rw [readDataChecked]
  generalize decodeListPtrChecked p = list at kind ⊢
  cases list with
  | error message => rfl
  | ok found =>
      cases found with
      | none => rfl
      | some d =>
          by_cases other : (ListKind.scalar .uint8).Mismatches d
          · exact absurd (if_pos other) kind
          · have bytes
                : (ListKind.scalar .uint8).elements d
                  = readBytes d.msg d.seg (d.startWord * 8) d.elemCount :=
              if_neg other
            exact (if_neg other).trans ((congrArg Except.ok bytes.symm).trans (if_neg other).symm)

/-- Data is read back, whatever else is written since. -/
theorem writeData_settles (valid : st.Valid) (owned : store.owned st p.cell) {data : List UInt8}
    (small : data.length < 2 ^ 29)
    : store.Settles (fun cell => cell = p.cell) st (writeData p data st)
        (fun later => later.Valid → later.Addressable → DataAt (p.reader later) data) := by
  rw [writeData_eq]
  intro later effect valid' addressable
  obtain ⟨read, checked, acyclic⟩ :=
    Scalar.uint8.writeList_settles valid owned small later effect valid' addressable
  have values : data.map Scalar.uint8.stored = data := List.map_id _
  have checked : Accepts ((ListKind.scalar .uint8).readChecked (p.reader later)) data (data = []) :=
    Eq.subst (motive := fun vals : List UInt8 => Accepts _ vals _) values checked
  have kind
      : (ListKind.scalar .uint8).readChecked (p.reader later)
        ≠ .error "uint8 list kind mismatch" := by
    intro refused
    rcases checked with accepted | ⟨-, outside⟩
    · exact nomatch accepted.symm.trans refused
    · exact absurd (Except.error.inj (outside.symm.trans refused)) (by decide)
  refine ⟨(readData_eq _).trans (read.trans values), ?_, acyclic⟩
  rwa [readDataChecked_eq kind]

/-- Text is data that ends in a zero byte. -/
theorem readTextChecked_of_data {p : AnyPointer} {bytes : List UInt8} {text : String}
    (checked : readDataChecked p = .ok (bytes ++ [0])) (chars : fromUtf8? bytes = some text)
    : readTextChecked p = .ok text := by
  have some : ¬ ((bytes ++ [0]).length == 0) = true := by simp
  have length : (bytes ++ [0]).length - 1 = bytes.length := by simp
  have last : ¬ ((bytes ++ [0]).getD bytes.length 0 != 0) = true := by simp
  have front : (bytes ++ [0]).take bytes.length = bytes := List.take_left
  simp only [readTextChecked, checked, bind, Except.bind, length, front, chars]
  rw [if_neg some, if_neg last]
  rfl

/-- A text is data with a zero byte at its end. -/
theorem textAt_of_dataAt {p : AnyPointer} {text : String}
    (found : DataAt p (text.toUTF8.toList ++ [0])) : TextAt p text := by
  have checked : readDataChecked p = .ok (text.toUTF8.toList ++ [0]) := by
    rcases found.checked with accepted | ⟨empty, -⟩
    · exact accepted
    · exact absurd empty (List.append_ne_nil_of_right_ne_nil _ (List.cons_ne_nil _ _))
  have chars : fromUtf8? text.toUTF8.toList = some text :=
    fromUtf8?_eq_some_iff.mpr (toList_toUTF8 text).symm
  have accepted := readTextChecked_of_data checked chars
  exact ⟨(readText_of_checked accepted).1, .inl accepted, found.acyclic⟩

/-- A text is read back, whatever else is written since. -/
theorem writeText_settles (valid : st.Valid) (owned : store.owned st p.cell) {text : String}
    (small : text.toUTF8.toList.length + 1 < 2 ^ 29)
    : store.Settles (fun cell => cell = p.cell) st (writeText p text st)
        (fun later => later.Valid → later.Addressable → TextAt (p.reader later) text) := by
  intro later effect valid' addressable
  refine textAt_of_dataAt (writeData_settles valid owned ?_ later effect valid' addressable)
  rwa [List.length_append, List.length_singleton]

/-- A capability's pointer is in its own word. -/
theorem writeCapability_reads (valid : st.Valid) (owned : store.owned st p.cell) (cap : UInt32)
    : store.Settles (fun cell => cell = p.cell) st (writeCapability p cap st)
        (fun later => later.Valid → later.Addressable → CapabilityAt (p.reader later) cap) := by
  intro later effect valid' _
  have word := writeWordLE_settles valid owned (encodeCapabilityPointer cap) later effect valid'
  have plain := readCapability_of_readWord (p := p.reader later) word
  have owned' := (writeCapability_writes valid p cap).effect.grows _ owned
  have read := readWordChecked_buildMessage valid' (effect.grows _ owned')
  rw [word] at read
  have checked : readCapabilityChecked (p.reader later) = .ok cap := by
    show (readWordChecked (buildMessage later) p.seg p.word >>= _) = _
    rw [read]
    simp only [bind, Except.bind, beq_iff_eq, if_neg (encodeCapabilityPointer_ne_zero cap),
      encodeCapabilityPointer_kind, if_true, encodeCapabilityPointer_index]
    rfl
  have kind : readWord (buildMessage later) p.seg p.word &&& 3 = 3 := by
    rw [word]
    exact beq_iff_eq.mp (encodeCapabilityPointer_three cap)
  exact ⟨plain, .inl checked, acyclic_of_resolve_none (resolvePointer_of_capability kind)⟩

end Reading

-----------------------------------------------------------------------------------------
-- Lists of pointers
-----------------------------------------------------------------------------------------

section Pointers

variable {α : Type} {write : AnyPointerBuilder → α → MessageBuilder → MessageBuilder}
  {fits : α → Prop} {valueAt : AnyPointer → α → Prop}

/-- A writer of values changes its pointer only, and what it writes is there until then. -/
structure WritesValues (write : AnyPointerBuilder → α → MessageBuilder → MessageBuilder)
    (fits : α → Prop) (valueAt : AnyPointer → α → Prop) : Prop where
  writes
    : ∀ (p : AnyPointerBuilder) (val : α) {st : MessageBuilder}, st.Valid →
        WritesAt p st (write p val st)
  settles
    : ∀ {p : AnyPointerBuilder} {val : α} {st : MessageBuilder}, st.Valid →
        store.owned st p.cell → fits val →
          store.Settles (fun cell => cell = p.cell) st (write p val st)
            (fun later => later.Valid → later.Addressable → valueAt (p.reader later) val)
  acyclic : ∀ {p : AnyPointer} {val : α}, valueAt p val → p.Acyclic

/-- The values of a list are written each to its own pointer. -/
theorem writeListWith_settles (writer : WritesValues write fits valueAt) (default : α)
    {st : MessageBuilder} {p : AnyPointerBuilder} (valid : st.Valid) (owned : store.owned st p.cell)
    {vals : List α} (small : vals.length < 2 ^ 29) (allFit : ∀ val ∈ vals, fits val)
    : store.Settles (fun cell => cell = p.cell) st (writeListWith write default p vals st)
        (fun later => later.Valid → later.Addressable → ListAt valueAt (p.reader later) vals) := by
  let lb := (initListPointer p elemSizePointer vals.length st).1
  let base := (initListPointer p elemSizePointer vals.length st).2
  let pointer (i : Nat) : AnyPointerBuilder := { seg := lb.seg, word := lb.startWord + i }
  have places := initObject_places valid p (initListWords elemSizePointer vals.length)
    (fun offset => encodeListPointer offset elemSizePointer vals.length)
  have start : WritesAt p st base := places.writes
  have allocated : lb.startWord + vals.length ≤ base.used lb.seg :=
    initListPointer_owned valid p (by decide) vals.length
  obtain ⟨⟨valid', effect⟩, settled⟩ := Store.Settles.foldl
    (fun st i =>
      write ((listPointerBuilders lb).getD i { seg := 0, word := 0 }) (vals.getD i default) st)
    (fun i cell => cell = (pointer i).cell)
    (fun i later =>
      later.Valid → later.Addressable → valueAt ((pointer i).reader later) (vals.getD i default))
    (List.pairwise_lt_range.imp (fun {i j} before cell here there => by
      have same := congrArg Prod.snd (here.symm.trans there)
      simp only [pointer, AnyPointerBuilder.cell] at same
      omega))
    Valid
    (by
      intro i inside state valid region
      have index := List.mem_range.mp inside
      rw [listPointerBuilders_inside rfl rfl index]
      have writes := writer.writes (pointer i) (vals.getD i default) valid
      refine ⟨writes.valid, writes.effect, writer.settles valid (region _ rfl) ?_⟩
      rw [List.getD_eq_getElem _ _ index]
      exact allFit _ (List.getElem_mem index))
    (show base.Valid from start.valid)
    (by
      rintro i inside cell rfl
      have index := List.mem_range.mp inside
      exact Nat.lt_of_lt_of_le (Nat.add_lt_add_left index _) allocated)
  have behind {cell : Nat × Nat} (element : ∃ i ∈ List.range vals.length, cell = (pointer i).cell)
      : Behind lb.seg lb.startWord cell := by
    obtain ⟨i, -, rfl⟩ := element
    exact ⟨rfl, Nat.le_add_right ..⟩
  have fills : Writes (Behind lb.seg lb.startWord) base (writeListWith write default p vals st) :=
    ⟨valid', effect.widen (fun _ _ => behind)⟩
  intro later foreign validLater addressable
  have found : ListFound p lb _ later := initListPointer_settles valid owned (by decide) small fills
    later foreign validLater addressable
  obtain ⟨read, checked, elements⟩ := found.reads .pointer rfl rfl
  have pointers
      : readListPointer (p.reader later)
        = (List.range vals.length).map (fun i => (pointer i).reader later) :=
    read.trans elements
  have values : (List.range vals.length).map (fun i => vals.getD i default) = vals :=
    (map_getD_range id vals default).trans (List.map_id _)
  have all : List.Forall₂ valueAt (readListPointer (p.reader later)) vals := by
    rw [pointers]
    nth_rewrite 2 [← values]
    rw [List.forall₂_map_left_iff, List.forall₂_map_right_iff, List.forall₂_same]
    intro i inside
    refine settled i inside later (foreign.widen ?_) validLater addressable
    exact fun cell _ both => ⟨start.effect.grows _ both.1, fun element =>
      places.not_behind both.1 (behind element)⟩
  refine ⟨all, ?_, found.acyclic_of_pointers rfl rfl (fun pointer member => ?_)⟩
  · show Accepts (ListKind.pointer.readChecked _) (ListKind.pointer.read _) _
    rw [checked, read]
    refine accepts_acceptedAt _ (fun some => Nat.lt_of_lt_of_le ?_ found.room)
    exact Nat.lt_add_of_pos_right (List.length_pos_iff.mpr some)
  · obtain ⟨i, inside, rfl⟩ := List.mem_iff_getElem.mp member
    exact writer.acyclic (all.get inside (all.length_eq ▸ inside))

end Pointers

/-- Content that is found leads nowhere else. -/
theorem Content.ReadFrom.acyclic {content : Content} {p : AnyPointer} (read : content.ReadFrom p)
    : p.Acyclic := by
  cases content with
  | capability | data | text | voids | scalars => exact ValueAt.acyclic read
  | capabilities | datas | texts => exact read.2.2.2

-----------------------------------------------------------------------------------------
-- Round trips
-----------------------------------------------------------------------------------------

/-- Texts are written behind their pointers and read back. -/
theorem writesValues_text
    : WritesValues writeText (fun text => text.toUTF8.toList.length + 1 < 2 ^ 29) TextAt where
  writes := fun p text _ valid => writeText_writes valid p text
  settles := fun valid owned fits => writeText_settles valid owned fits
  acyclic := ValueAt.acyclic

/-- Data is written behind its pointer and read back. -/
theorem writesValues_data : WritesValues writeData (fun data => data.length < 2 ^ 29) DataAt where
  writes := fun p data _ valid => writeData_writes valid p data
  settles := fun valid owned fits => writeData_settles valid owned fits
  acyclic := ValueAt.acyclic

/-- Capabilities are written into their pointers and read back. -/
theorem writesValues_capability
    : WritesValues writeCapability (fun _ => True) CapabilityAt where
  writes := fun p cap _ valid => writeCapability_writes valid p cap
  settles := fun valid owned _ => writeCapability_reads valid owned _
  acyclic := ValueAt.acyclic

/-- Mapping a reader maps its elements. -/
theorem toArray_map {α β : Type} (f : α → β) (reader : ListReader α)
    : (ListReader.map f reader).toArray = reader.toArray.map f := by
  apply List.ext_getElem
  · simp [ListReader.toArray, ListReader.map]
  · intro i left right
    simp [ListReader.toArray, ListReader.map]

/-- A reader of arrays that reads the pointers of a list reads the values at them. -/
theorem map_of_listAt {α : Type} {valueAt : AnyPointer → α → Prop} {read : AnyPointer → α}
    (reads : ∀ p val, valueAt p val → read p = val) {p : AnyPointer} {vals : List α}
    (found : ListAt valueAt p vals)
    : (ListReader.map read (readListPointerReader p)).toArray = vals := by
  have same := found.1
  rw [toArray_map, ← List.forall₂_eq_eq_eq, List.forall₂_map_left_iff]
  exact same.imp (fun p val => reads p val)

-----------------------------------------------------------------------------------------
-- Free words
-----------------------------------------------------------------------------------------

section Clean

variable {st : MessageBuilder} {p : AnyPointerBuilder}

/-- Data leaves the unused words zero. -/
theorem writeData_clean (valid : st.Valid) (clean : st.Clean) (owned : store.owned st p.cell)
    (data : List UInt8) : (writeData p data st).Clean := by
  have room := initListPointer_owned valid p (by decide : elemSizeByte < 7) data.length
  have words : listDataWords elemSizeByte data.length = (data.length + 7) / 8 := rfl
  show (writeBytesAt (initListPointer p elemSizeByte data.length st).1.seg
    ((initListPointer p elemSizeByte data.length st).1.startWord * 8) data
    (initListPointer p elemSizeByte data.length st).2).Clean
  apply writeBytesAt_clean (initListPointer_clean valid clean owned elemSizeByte data.length)
  omega

/-- A list of scalars leaves the unused words zero. -/
theorem Scalar.writeList_clean (s : Scalar) (valid : st.Valid) (clean : st.Clean)
    (owned : store.owned st p.cell) (vals : List s.Value) : (s.writeList p vals st).Clean := by
  let lb := (initListPointer p s.elemSize vals.length st).1
  let base := (initListPointer p s.elemSize vals.length st).2
  have start : base.Valid := (initListPointer_writes valid p s.elemSize vals.length).valid
  have startClean : base.Clean := initListPointer_clean valid clean owned s.elemSize vals.length
  have allocated : lb.startWord + listDataWords s.elemSize vals.length ≤ base.used lb.seg :=
    initListPointer_owned valid p s.elemSize_lt vals.length
  by_cases bytes : s = .bool
  · subst bytes
    have ran : Scalar.bool.writeList p vals st = _ := writeListBool_eq_listSets p vals st
    rw [ran]
    exact listSets_clean (l := lb) start startClean rfl allocated (boolSets vals)
  · rw [s.writeList_eq_writeBytesAt bytes]
    have room := (length_wires bytes vals).2
    exact writeBytesAt_clean startClean
      (show lb.startWord * 8 + (s.wires vals).length ≤ base.used lb.seg * 8 by omega)

/-- So does a list of pointers whose values do. -/
theorem writeListWith_clean {α : Type}
    {write : AnyPointerBuilder → α → MessageBuilder → MessageBuilder}
    (writes
      : ∀ (p : AnyPointerBuilder) (val : α) {st : MessageBuilder}, st.Valid →
          WritesAt p st (write p val st))
    (cleans
      : ∀ (p : AnyPointerBuilder) (val : α) {st : MessageBuilder}, st.Valid → st.Clean →
          store.owned st p.cell → (write p val st).Clean)
    (default : α) (valid : st.Valid) (clean : st.Clean) (owned : store.owned st p.cell)
    (vals : List α) : (writeListWith write default p vals st).Clean := by
  let lb := (initListPointer p elemSizePointer vals.length st).1
  let base := (initListPointer p elemSizePointer vals.length st).2
  have start := initListPointer_writes valid p elemSizePointer vals.length
  have room : lb.startWord + vals.length ≤ base.used lb.seg :=
    initListPointer_owned valid p (by decide) vals.length
  refine foldlM_clean (fun cell => ∃ i < vals.length, cell = (lb.seg, lb.startWord + i)) ?_
    start.valid (initListPointer_clean valid clean owned elemSizePointer vals.length) ?_
    (List.foldlM_pure (m := Option))
  · rintro i inside state _ valid clean owned ⟨⟩
    have inside := List.mem_range.mp inside
    rw [listPointerBuilders_inside rfl rfl inside]
    have step := writes { seg := lb.seg, word := lb.startWord + i } (vals.getD i default) valid
    exact ⟨step.widen (fun _ _ _ => trivial), cleans _ _ valid clean (owned _ ⟨i, inside, rfl⟩)⟩
  · rintro _ ⟨i, inside, rfl⟩
    exact Nat.lt_of_lt_of_le (Nat.add_lt_add_left inside _) room

end Clean

namespace Content

/-- A content is written behind its own pointer only. -/
theorem writes (content : Content) {st : MessageBuilder} (valid : st.Valid) (p : AnyPointerBuilder)
    : WritesAt p st (content.write p st) := by
  cases content with
  | capability cap => exact writeCapability_writes valid p cap
  | data data => exact writeData_writes valid p data
  | text text => exact writeText_writes valid p text
  | voids vals => exact initListPointer_writes valid p elemSizeVoid vals.length
  | scalars s vals =>
      exact initListPointer_then valid s.elemSize vals.length (s.writeList_fills valid p vals).1
  | capabilities vals => exact writeListWith_writes writesValues_capability.writes 0 valid p vals
  | datas vals => exact writeListWith_writes writesValues_data.writes [] valid p vals
  | texts vals => exact writeListWith_writes writesValues_text.writes "" valid p vals

/-- What is written takes the free words that it needs. -/
theorem clean (content : Content) {st : MessageBuilder} (valid : st.Valid) (clean : st.Clean)
    {p : AnyPointerBuilder} (owned : store.owned st p.cell) : (content.write p st).Clean := by
  cases content with
  | capability cap => exact writeWordLE_clean clean owned _
  | data data => exact writeData_clean valid clean owned data
  | text text => exact writeData_clean valid clean owned _
  | voids vals => exact initListPointer_clean valid clean owned elemSizeVoid vals.length
  | scalars s vals => exact s.writeList_clean valid clean owned vals
  | capabilities vals =>
      exact writeListWith_clean writesValues_capability.writes
        (fun _ val _ _ clean owned => writeWordLE_clean clean owned _) 0 valid clean owned vals
  | datas vals =>
      exact writeListWith_clean writesValues_data.writes
        (fun _ val _ valid clean owned => writeData_clean valid clean owned val) [] valid clean
        owned
        vals
  | texts vals =>
      exact writeListWith_clean writesValues_text.writes
        (fun _ val _ valid clean owned => writeData_clean valid clean owned _) "" valid clean owned
        vals

/-- What is written to a pointer is what the readers find behind it, whatever else is written
since.
-/
theorem settles {content : Content} (fits : content.Fits) {st : MessageBuilder}
    (valid : st.Valid) {p : AnyPointerBuilder} (owned : store.owned st p.cell)
    : store.Settles (fun cell => cell = p.cell) st (content.write p st)
        (fun later => later.Valid → later.Addressable → content.ReadFrom (p.reader later)) := by
  cases content with
  | capability cap => exact writeCapability_reads valid owned cap
  | data data => exact writeData_settles valid owned fits
  | text text => exact writeText_settles valid owned fits
  | voids vals => exact writeListVoid_settles valid owned fits
  | scalars s vals => exact s.writeList_settles valid owned fits
  | capabilities vals =>
      intro later effect valid' addressable
      have found := writeListWith_settles writesValues_capability 0 valid owned fits
        (fun _ _ => trivial) later effect valid' addressable
      exact ⟨map_of_listAt (fun _ _ => ValueAt.plain) found, found⟩
  | datas vals =>
      intro later effect valid' addressable
      have found := writeListWith_settles writesValues_data [] valid owned fits.1 fits.2
        later effect valid' addressable
      exact ⟨map_of_listAt (fun _ _ => ValueAt.plain) found, found⟩
  | texts vals =>
      intro later effect valid' addressable
      have found := writeListWith_settles writesValues_text "" valid owned fits.1 fits.2
        later effect valid' addressable
      exact ⟨map_of_listAt (fun _ _ => ValueAt.plain) found, found⟩

/-- Writing to a pointer changes no other allocated word, and the readers find what was written,
also after any other words are written.
-/
theorem readFrom_write {content : Content} (fits : content.Fits) {st : MessageBuilder}
    (valid : st.Valid) {p : AnyPointerBuilder} (owned : store.owned st p.cell)
    : Writes (fun cell => cell = p.cell) st (content.write p st)
      ∧ store.Settles (fun cell => cell = p.cell) st (content.write p st)
          (fun later => later.Valid → later.Addressable → content.ReadFrom (p.reader later)) :=
  ⟨content.writes valid p, settles fits valid owned⟩

/-- Two pieces of data, one without bytes, at the root of a new message. -/
def twoData : MessageBuilder :=
  (Content.datas [[1, 2, 3], []]).write getRootPointer (initMessageBuilder 8)

/-- Witness: the readers find the two pieces. -/
theorem readFrom_write_datas
    : (Content.datas [[1, 2, 3], []]).ReadFrom (getRootPointer.reader twoData) := by
  have fits : (Content.datas [[1, 2, 3], []]).Fits := ⟨by decide, by decide⟩
  obtain ⟨wrote, lasts⟩ := readFrom_write fits (initMessageBuilder_valid 8) root_owned
  exact lasts twoData (.refl _ _) wrote.valid (addressable_of_usedWords (by decide) (by decide))

end Content

end Capnp
