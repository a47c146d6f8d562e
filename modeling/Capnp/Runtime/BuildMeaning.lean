import Capnp.Runtime.BuildRuns
import Capnp.Runtime.PackedWriter

/-! What is built is what is read. From the root on, the readers of a message find the objects
that the operations made, with the fields, elements and contents that they were given, also
after the message was written out and read back.
-/

namespace Capnp

open BitFields MessageBuilder

-----------------------------------------------------------------------------------------
-- The readers' view of nodes
-----------------------------------------------------------------------------------------

/-- A struct as its object should read. -/
structure StructMeans (means : Slot → AnyPointer → Prop) (object : Node) (r : StructReader)
    : Prop where
  dataWords : r.dataWords = object.place.dataWords
  ptrCount : r.ptrCount = object.place.ptrCount
  fields
    : ∀ (s : Scalar) (offset : Nat) (mask : Option (BitVec s.width)),
        s.bitOffset offset + s.width ≤ object.place.dataWords * 64 →
          s.get r offset mask
            = s.ofBits (slice object.data (s.bitOffset offset) s.width ^^^ mask.getD 0#s.width)
  pointers : ∀ j < object.place.ptrCount, means (object.slots j) (getPointer r j)

/-- The elements that a list's object holds. -/
def Node.elements (object : Node) (s : Scalar) (elemCount : Nat) : List s.Value :=
  (List.range elemCount).map (fun i => s.ofBits (slice object.data (i * s.width) s.width))

/-- A list as its object should read, by the readers of its element size. -/
structure ListMeans (means : Slot → AnyPointer → Prop) (object : Node) (elemSize elemCount : Nat)
    (p : AnyPointer) : Prop where
  voids
    : elemSize = elemSizeVoid →
        (readListVoid p).length = elemCount
        ∧ Accepts (readListVoidChecked p) (readListVoid p) True
  scalars
    : ∀ s : Scalar, elemSize = s.elemSize →
        (ListKind.scalar s).read p = object.elements s elemCount
        ∧ Accepts ((ListKind.scalar s).readChecked p) (object.elements s elemCount) (elemCount = 0)
  pointers
    : elemSize = elemSizePointer →
        List.Forall₂ means ((List.range elemCount).map object.slots) (readListPointer p)
        ∧ Accepts (readListPointerChecked p) (readListPointer p) (elemCount = 0)

/-- What the readers make of a pointer, down to a depth. -/
def Means (nodes : List Node) : Nat → Slot → AnyPointer → Prop
  | 0, _, _ => True
  | depth + 1, slot, p =>
      match slot with
      | .null => isNullPointer p = true
      | .content content => content.ReadFrom p
      | .copy src => ∀ depth, SameContent depth src p
      | .struct node =>
          ∃ object, nodes[node]? = some object
            ∧ StructMeans (Means nodes depth) object (readStruct p)
            ∧ (0 < object.place.dataWords + object.place.ptrCount →
                readStructChecked p = .ok (readStruct p))
      | .list elemSize elemCount node =>
          ∃ object, nodes[node]? = some object
            ∧ ListMeans (Means nodes depth) object elemSize elemCount p
      | .structs _ _ elemCount first =>
          (readListStruct p).length = elemCount
          ∧ readListStructChecked p = .ok (readListStruct p)
          ∧ ∀ i r, (readListStruct p)[i]? = some r →
              ∃ object, nodes[first + i]? = some object
                ∧ StructMeans (Means nodes depth) object r

-----------------------------------------------------------------------------------------
-- Reading the state
-----------------------------------------------------------------------------------------

namespace Build

variable {b : Build}

/-- Every place belongs to a node. -/
theorem exists_node {i : Nat} {place : StructBuilder} (found : b.places[i]? = some place)
    : ∃ object, b.nodes[i]? = some object ∧ object.place = place := by
  rw [places, List.getElem?_map] at found
  exact Option.map_eq_some_iff.mp found

/-- The pointers of an object lead where they should in the state itself. -/
theorem Laid.leads (laid : b.Laid) (addressable : b.st.Addressable) {i : Nat} {object : Node}
    (found : b.nodes[i]? = some object) {j : Nat} (inside : j < object.place.ptrCount)
    : Leads b.places b.st (object.pointer j) (object.slots j) :=
  laid.slots found j inside b.st (.refl _ _) laid.valid addressable

/-- The bits of an object's data are those that it should hold. -/
theorem Laid.slice_eq (laid : b.Laid) {i : Nat} {object : Node}
    (found : b.nodes[i]? = some object) {base width : Nat}
    (fits : base + width ≤ object.place.dataWords * 64)
    : slice (object.place.dataBits b.st) base width = slice object.data base width :=
  slice_congr (fun k inside => laid.data object (List.mem_of_getElem? found) _ (by omega))

/-- A struct reads as its node, if its pointers do. -/
theorem Laid.structMeans (laid : b.Laid) {means : Slot → AnyPointer → Prop} {i : Nat}
    {object : Node} (found : b.nodes[i]? = some object)
    (below
      : ∀ j < object.place.ptrCount, means (object.slots j) ((object.pointer j).reader b.st))
    : StructMeans means object (object.place.reader b.st) where
  dataWords := rfl
  ptrCount := rfl
  fields := by
    intro s offset mask fits
    have wide : 0 < s.width := by cases s <;> decide
    rw [s.get_reader laid.valid (laid.allocated found (by omega)) fits, laid.slice_eq found fits]
  pointers := below

/-- The same from the pointer that leads to it. -/
theorem Laid.struct_means (laid : b.Laid) (addressable : b.st.Addressable)
    {means : Slot → AnyPointer → Prop}
    (below : ∀ {slot p}, Leads b.places b.st p slot → means slot (p.reader b.st)) {i : Nat}
    {object : Node} (found : b.nodes[i]? = some object) {p : AnyPointerBuilder}
    (leads : StructFound p object.place b.st)
    : StructMeans means object (readStruct (p.reader b.st))
      ∧ (0 < object.place.dataWords + object.place.ptrCount →
          readStructChecked (p.reader b.st) = .ok (readStruct (p.reader b.st))) := by
  have room := leads.room
  rcases leads.decoded with ⟨decoded, checked⟩ | ⟨noData, noPointers, none⟩
  · have reader : readStruct (p.reader b.st) = object.place.reader b.st := by
      rw [readStruct, decoded]
    rw [reader]
    refine ⟨laid.structMeans found (fun j inside => below (laid.leads addressable found inside)),
      fun words => checked.trans (if_pos ?_)⟩
    show object.place.dataOff < b.st.used object.place.seg
    omega
  · have reader : readStruct (p.reader b.st) = emptyStruct (buildMessage b.st) p.seg := by
      simp only [readStruct, decodeStructPtr, none]
      rfl
    rw [reader]
    refine ⟨⟨noData.symm, noPointers.symm, fun s offset mask fits => ?_, fun j inside => ?_⟩,
      fun words => by omega⟩
    · have wide : 0 < s.width := by cases s <;> decide
      omega
    · omega

/-- A list reads as its node, if its pointers do. -/
theorem Laid.list_means (laid : b.Laid) (addressable : b.st.Addressable)
    {means : Slot → AnyPointer → Prop}
    (below : ∀ {slot p}, Leads b.places b.st p slot → means slot (p.reader b.st)) {i : Nat}
    {object : Node} (found : b.nodes[i]? = some object) {p : AnyPointerBuilder} {lb : ListBuilder}
    (plain : lb.inlineComposite = false) (place : object.place = lb.place)
    (leads : ListFound p lb b.st b.st)
    : ListMeans means object lb.elemSize lb.elemCount (p.reader b.st) where
  voids := by
    intro isVoid
    obtain ⟨read, checked, elements⟩ := leads.reads .void plain isVoid
    refine ⟨?_, ?_⟩
    · have read
          : readListVoid (p.reader b.st) = (List.range lb.elemCount).map (fun _ => ()) :=
        read.trans elements
      rw [read, List.length_map, List.length_range]
    · show Accepts (ListKind.void.readChecked _) (ListKind.void.read _) True
      rw [checked, read]
      exact accepts_acceptedAt _ (fun some => absurd trivial some)
  scalars := by
    intro s isScalar
    obtain ⟨read, checked, -⟩ := leads.reads (.scalar s) plain isScalar
    have data : object.place = lb.asStruct :=
      place.trans (if_neg (isScalar ▸ s.elemSize_ne_pointer))
    have elements
        : (ListKind.scalar s).elements (lb.reader b.st) = object.elements s lb.elemCount := by
      rw [s.elements_reader laid.valid plain isScalar leads.room, Scalar.listBits, List.map_map]
      apply List.map_congr_left
      intro k inside
      have fits := s.element_fits (List.mem_range.mp inside)
      rw [← isScalar, Nat.add_mul, Nat.one_mul] at fits
      have inData : k * s.width + s.width ≤ object.place.dataWords * 64 := by
        rw [data]
        exact fits
      have same := laid.slice_eq found inData
      show s.ofBits (slice _ _ _) = s.ofBits (slice object.data (k * s.width) s.width)
      rw [← same, data]
      exact congrArg s.ofBits (slice_congr (fun j _ => by
        rw [StructBuilder.dataBits, Nat.add_assoc]
        rfl))
    rw [elements] at read checked
    refine ⟨read, ?_⟩
    rw [checked]
    refine accepts_acceptedAt _ (fun some => ?_)
    have words := listDataWords_pos s (Nat.pos_of_ne_zero some)
    rw [← isScalar] at words
    exact Nat.lt_of_lt_of_le (Nat.lt_add_of_pos_right words) leads.room
  pointers := by
    intro isPointer
    obtain ⟨read, checked, elements⟩ := leads.reads .pointer plain isPointer
    have pointers : object.place = _ := place.trans (if_pos isPointer)
    have element (j : Nat) : object.pointer j = { seg := lb.seg, word := lb.startWord + j } := by
      rw [Node.pointer, pointers]
      rfl
    refine ⟨?_, ?_⟩
    · have read
          : readListPointer (p.reader b.st)
            = (List.range lb.elemCount).map (lb.reader b.st).elementPointer :=
        read.trans elements
      rw [read, List.forall₂_map_left_iff, List.forall₂_map_right_iff, List.forall₂_same]
      intro j inside
      have inside : j < object.place.ptrCount := pointers ▸ List.mem_range.mp inside
      have means := below (laid.leads addressable found inside)
      rwa [element] at means
    · show Accepts (ListKind.pointer.readChecked _) (ListKind.pointer.read _) _
      rw [checked, read]
      refine accepts_acceptedAt _ (fun some => Nat.lt_of_lt_of_le ?_ leads.room)
      have words : listDataWords lb.elemSize lb.elemCount = lb.elemCount := isPointer ▸ rfl
      rw [words]
      exact Nat.lt_add_of_pos_right (Nat.pos_of_ne_zero some)

/-- What pointers lead to is what the readers make of it, by induction on the depth. -/
theorem Laid.means (laid : b.Laid) (addressable : b.st.Addressable) (depth : Nat) {slot : Slot}
    {p : AnyPointerBuilder} (leads : Leads b.places b.st p slot)
    : Means b.nodes depth slot (p.reader b.st) := by
  induction depth generalizing slot p with
  | zero => exact trivial
  | succ depth ih =>
      match slot, leads with
      | .null, leads => exact beq_iff_eq.mpr leads
      | .content _, leads => exact leads
      | .copy _, leads => exact leads.2
      | .struct _, ⟨_, found, leads⟩ =>
          obtain ⟨object, present, rfl⟩ := exists_node found
          exact ⟨object, present, laid.struct_means addressable ih present leads⟩
      | .list _ _ _, ⟨lb, size, count, plain, found, leads⟩ =>
          obtain ⟨object, present, place⟩ := exists_node found
          subst size count
          exact ⟨object, present, laid.list_means addressable ih present plain place leads⟩
      | .structs _ _ _ _, ⟨lb, _, _, count, found, leads⟩ =>
          subst count
          have readers
              : readListStruct (p.reader b.st)
                = (List.range lb.elemCount).map (fun i => (lb.structBuilder i).reader b.st) := by
            rw [readListStruct, leads.decoded]
            refine (if_pos leads.composite).trans (List.map_congr_left (fun i _ => ?_))
            exact structReader_reader lb b.st i
          refine ⟨by rw [readers, List.length_map, List.length_range], ?_, fun i r there => ?_⟩
          · rw [readListStructChecked, leads.checked, readListStruct, leads.decoded]
            exact (if_pos leads.composite).trans (congrArg Except.ok (if_pos leads.composite).symm)
          · rw [readers, List.getElem?_map] at there
            obtain ⟨k, present, rfl⟩ := Option.map_eq_some_iff.mp there
            obtain ⟨inside, rfl⟩ := List.getElem?_eq_some_iff.mp present
            rw [List.getElem_range]
            rw [List.length_range] at inside
            obtain ⟨object, there, place⟩ := exists_node (found i inside)
            rw [← place]
            exact ⟨object, there, laid.structMeans there (fun j inside =>
              ih (laid.leads addressable there inside))⟩

/-- What the root's pointer was given. -/
def root (b : Build) : Slot :=
  match b.nodes with
  | [] => .null
  | node :: _ => node.slots 0

/-- The root's object, and its pointer. -/
theorem Laid.exists_root (laid : b.Laid)
    : ∃ object, b.nodes[0]? = some object ∧ 0 < object.place.ptrCount
        ∧ object.pointer 0 = getRootPointer := by
  obtain ⟨object, found, place⟩ := exists_node laid.root
  refine ⟨object, found, place ▸ Nat.one_pos, ?_⟩
  rw [Node.pointer, place]
  rfl

/-- The root reads as its node, by induction on the depth. -/
theorem Laid.root_means (laid : b.Laid) (addressable : b.st.Addressable) (depth : Nat)
    : Means b.nodes depth b.root (getRoot (buildMessage b.st)) := by
  obtain ⟨object, found, inside, pointer⟩ := laid.exists_root
  have means := laid.means addressable depth (laid.leads addressable found inside)
  have root : b.root = object.slots 0 := by
    rw [Build.root]
    cases nodes : b.nodes with
    | nil => rw [nodes] at found; cases found
    | cons first rest =>
        rw [nodes] at found
        exact congrArg (Node.slots · 0) (Option.some.inj found)
  rw [pointer] at means
  rw [root]
  exact means

-----------------------------------------------------------------------------------------
-- Cycles
-----------------------------------------------------------------------------------------

/-- A pointer leads into no cycle when the pointers of the objects it leads to do not. -/
theorem acyclic_of_leads {slot : Slot} {p : AnyPointerBuilder} (leads : Leads b.places b.st p slot)
    (below
      : ∀ {child : Nat} {object : Node}, slot.Child child → b.nodes[child]? = some object →
          ∀ j < object.place.ptrCount, ((object.pointer j).reader b.st).Acyclic)
    : (p.reader b.st).Acyclic := by
  have struct {child : Nat} {place : StructBuilder} (isChild : slot.Child child)
      (found : b.places[child]? = some place)
      : ∀ pointer ∈ (place.reader b.st).pointers, pointer.Acyclic := by
    obtain ⟨object, present, rfl⟩ := exists_node found
    intro pointer member
    obtain ⟨j, inside, rfl⟩ := List.mem_map.mp member
    exact below isChild present j (List.mem_range.mp inside)
  match slot, leads with
  | .null, leads => exact acyclic_of_resolve_none (resolvePointer_of_null leads)
  | .content _, leads => exact leads.acyclic
  | .copy _, leads => exact acyclic_of_sameContent leads.1 leads.2
  | .struct _, ⟨_, found, leads⟩ =>
      rcases leads.decoded with ⟨decoded, -⟩ | ⟨-, -, absent⟩
      · apply acyclic_of_pointers
        rw [AnyPointer.pointers, decoded]
        exact struct rfl found
      · exact acyclic_of_resolve_none absent
  | .list _ _ _, ⟨lb, size, _, plain, found, leads⟩ =>
      by_cases isPointer : lb.elemSize = elemSizePointer
      · refine leads.acyclic_of_pointers plain isPointer (fun pointer member => ?_)
        obtain ⟨object, present, place⟩ := exists_node found
        have pointers : object.place = _ := place.trans (if_pos isPointer)
        obtain ⟨read, -, elements⟩ := leads.reads .pointer plain isPointer
        have read : readListPointer (p.reader b.st) = _ := read.trans elements
        rw [read] at member
        obtain ⟨j, inside, rfl⟩ := List.mem_map.mp member
        have inside : j < object.place.ptrCount := pointers ▸ List.mem_range.mp inside
        have acyclic := below rfl present j inside
        rw [Node.pointer, pointers] at acyclic
        exact acyclic
      · exact leads.acyclic plain isPointer
  | .structs _ _ _ first, ⟨lb, _, _, count, found, leads⟩ =>
      subst count
      apply acyclic_of_pointers
      rw [pointers_of_decodeListPtr leads.decoded, ListPointer.pointers]
      intro pointer member
      rw [if_pos (show (lb.reader b.st).inlineComposite = true from leads.composite)] at member
      obtain ⟨i, inside, inElement⟩ := List.mem_flatMap.mp member
      rw [structReader_reader] at inElement
      have inside : i < lb.elemCount := List.mem_range.mp inside
      exact struct ⟨Nat.le_add_right .., Nat.add_lt_add_left inside _⟩ (found i inside) pointer
        inElement

/-- Objects lead to newer ones only, so that no chain of them is infinite. -/
theorem Laid.acyclic (laid : b.Laid) (addressable : b.st.Addressable) {i : Nat} {object : Node}
    (found : b.nodes[i]? = some object) {j : Nat} (inside : j < object.place.ptrCount)
    : ((object.pointer j).reader b.st).Acyclic := by
  induction behind : b.nodes.length - i using Nat.strong_induction_on generalizing i object j with
  | h behind ih =>
      refine acyclic_of_leads (laid.leads addressable found inside) ?_
      intro child other isChild present k inside'
      have newer := laid.newer found j inside child isChild
      exact ih (b.nodes.length - child) (by omega) present inside' rfl

end Build

/-- The sizes of an addressable message fit its frame. -/
theorem framable_buildMessage {st : MessageBuilder} (valid : st.Valid)
    (addressable : st.Addressable) (some : store.owned st getRootPointer.cell)
    : (buildMessage st).Framable where
  some := by
    have present := segment_lt_of_owned valid some
    intro none
    have length := length_segments_buildMessage st
    rw [none] at length
    exact Nat.not_lt_zero _ (length ▸ present)
  count := length_segments_buildMessage st ▸ addressable.segments
  sizes := by
    intro segment member
    obtain ⟨seg, inside, rfl⟩ := List.mem_iff_getElem.mp member
    have whole := length_getSegment_buildMessage valid seg
    rw [getSegment, List.getD_eq_getElem _ _ inside] at whole
    have words := addressable.words seg
    exact ⟨by omega, by omega⟩

-----------------------------------------------------------------------------------------
-- From the builder to the reader
-----------------------------------------------------------------------------------------

/-- The root pointer is allocated. -/
theorem Build.Laid.owned_root {b : Build}
    (laid : b.Laid) : store.owned b.st getRootPointer.cell := by
  obtain ⟨object, found, inside, pointer⟩ := laid.exists_root
  exact pointer ▸ laid.owned_pointer found inside

/-- The message of any run of operations is read back, framed or packed, where it stays in the
reader's limits; and from its root on it reads as it was built.
-/
theorem built_reads_back {b : Build} (reached : buildSystem.Reachable b)
    (addressable : b.st.Addressable) {opts : ReaderOptions}
    (segments : b.st.segments.length ≤ opts.maxSegments)
    (words : messageWords (buildMessage b.st) ≤ opts.maxMessageWords) (rest : List UInt8)
    : readMessageChecked opts (writeMessage (buildMessage b.st) ++ rest) = .ok (buildMessage b.st)
      ∧ readMessagePackedChecked opts (writeMessagePacked (buildMessage b.st))
        = .ok (buildMessage b.st)
      ∧ ∀ depth, Means b.nodes depth b.root (getRoot (buildMessage b.st)) := by
  have laid := reached.invariant Build.Laid Build.laid_of_initial Build.laid_of_step
  have framable := framable_buildMessage laid.valid addressable laid.owned_root
  have limits
      : (buildMessage b.st).segments.length ≤ opts.maxSegments
        ∧ messageWords (buildMessage b.st) ≤ opts.maxMessageWords :=
    ⟨length_segments_buildMessage b.st ▸ segments, words⟩
  exact ⟨(framable.readMessageChecked opts rest).mpr limits,
    (framable.readMessagePackedChecked opts).mpr limits,
    laid.root_means addressable⟩

/-- The note is small. -/
theorem fullNote_addressable : fullNote.st.Addressable :=
  addressable_of_usedWords (by decide) (by decide)

/-- Witness: a note, with a byte behind it and the limits that a reader has by default. -/
theorem built_reads_back_note
    : readMessageChecked {} (writeMessage (buildMessage fullNote.st) ++ [1])
        = .ok (buildMessage fullNote.st)
      ∧ readMessagePackedChecked {} (writeMessagePacked (buildMessage fullNote.st))
        = .ok (buildMessage fullNote.st)
      ∧ ∀ depth, Means fullNote.nodes depth fullNote.root (getRoot (buildMessage fullNote.st)) :=
  built_reads_back fullNote_reachable fullNote_addressable (by decide) (by decide) [1]

/-- What was built has no cycle, and may be copied to any pointer of any builder: the copy comes to
an end and has its content.
-/
theorem built_copies {b : Build} (reached : buildSystem.Reachable b)
    (addressable : b.st.Addressable) {st : MessageBuilder} (valid : st.Valid)
    {dst : AnyPointerBuilder} (owned : store.owned st dst.cell)
    : (getRoot (buildMessage b.st)).Acyclic
      ∧ ∃ after fuel,
          (∀ more ≥ fuel, copyAnyPointer more dst (getRoot (buildMessage b.st)) st = some after)
          ∧ Writes (fun cell => cell = dst.cell) st after
          ∧ (after.Addressable →
              ∀ depth, SameContent depth (getRoot (buildMessage b.st)) (dst.reader after)) := by
  have laid := reached.invariant Build.Laid Build.laid_of_initial Build.laid_of_step
  obtain ⟨object, found, inside, pointer⟩ := laid.exists_root
  have acyclic : (getRoot (buildMessage b.st)).Acyclic := by
    have acyclic := laid.acyclic addressable found inside
    rwa [pointer] at acyclic
  obtain ⟨after, fuel, copied, writes, same⟩ := copyAnyPointer_completes acyclic valid owned
  exact ⟨acyclic, after, fuel, copied, writes, same after (.refl _ _) writes.valid⟩

/-- The copy of the note takes three words behind the root pointer. -/
theorem usedWords_copy_note (fuel : Nat)
    : (copyAnyPointer (fuel + 3) getRootPointer (getRoot (buildMessage fullNote.st))
          (initMessageBuilder 8)).map
        (fun st => (st.segments.length, st.usedWords))
      = some (1, [4]) := rfl

/-- Witness: a note, copied to the root of a new message. -/
theorem built_copies_note
    : (getRoot (buildMessage fullNote.st)).Acyclic
      ∧ ∃ after fuel,
          (∀ more ≥ fuel,
            copyAnyPointer more getRootPointer (getRoot (buildMessage fullNote.st))
              (initMessageBuilder 8) = some after)
          ∧ ∀ depth,
              SameContent depth (getRoot (buildMessage fullNote.st))
                (getRootPointer.reader after) := by
  obtain ⟨acyclic, after, fuel, copied, -, same⟩ :=
    built_copies fullNote_reachable fullNote_addressable (initMessageBuilder_valid 8) root_owned
  have used := usedWords_copy_note fuel
  rw [copied (fuel + 3) (Nat.le_add_right ..), Option.map_some] at used
  obtain ⟨segments, words⟩ := Prod.mk.inj (Option.some.inj used)
  have addressable : after.Addressable := by
    refine addressable_of_usedWords ?_ ?_
    · rw [segments]
      decide
    · rw [words]
      decide
  exact ⟨acyclic, after, fuel, copied, same addressable⟩

end Capnp
