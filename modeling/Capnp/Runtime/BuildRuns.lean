import Capnp.Library.Transition
import Capnp.Runtime.ListRoundTrips

/-! Runs of a builder. Every object that is initialised is a node, with what it should hold: the
bits of its data and, for each of its pointers, what the pointer was last given. In every state
that the operations reach, the words of the nodes are apart and hold that.
-/

namespace Capnp

open BitFields MessageBuilder

-----------------------------------------------------------------------------------------
-- Objects
-----------------------------------------------------------------------------------------

/-- What a pointer was given last. Objects are named by their places among the nodes. -/
inductive Slot where
  | null
  | content (content : Content)
  | copy (src : AnyPointer)
  | struct (node : Nat)
  | list (elemSize elemCount node : Nat)
  | structs (dataWords ptrCount elemCount first : Nat)

/-- The nodes that a pointer leads to. -/
def Slot.Child (child : Nat) : Slot → Prop
  | .null | .content _ | .copy _ => False
  | .struct node | .list _ _ node => child = node
  | .structs _ _ elemCount first => first ≤ child ∧ child < first + elemCount

/-- An object: its words, and what they should hold. -/
structure Node where
  place : StructBuilder
  data : Nat → Bool
  slots : Nat → Slot

def StructBuilder.PointerCell (b : StructBuilder) (cell : Nat × Nat) : Prop :=
  cell.1 = b.seg ∧ b.ptrOff ≤ cell.2 ∧ cell.2 < b.ptrOff + b.ptrCount

def StructBuilder.Cell (b : StructBuilder) (cell : Nat × Nat) : Prop :=
  b.DataCell cell ∨ b.PointerCell cell

/-- The words of a struct are those that it covers. -/
theorem StructBuilder.cell_iff (b : StructBuilder) (cell : Nat × Nat)
    : b.Cell cell ↔ b.covers b.dataWords b.ptrCount cell :=
  and_or_left.symm

/-- The words of a list: its data, or its pointers. -/
def ListBuilder.place (l : ListBuilder) : StructBuilder :=
  if l.elemSize = elemSizePointer then
    { seg := l.seg, dataOff := l.startWord, dataWords := 0, ptrOff := l.startWord,
      ptrCount := l.elemCount }
  else l.asStruct

namespace Node

/-- A new object holds zeros. -/
def fresh (place : StructBuilder) : Node where
  place := place
  data := fun _ => false
  slots := fun _ => .null

def pointer (node : Node) (index : Nat) : AnyPointerBuilder :=
  getPointerBuilder node.place index

def setSlot (index : Nat) (slot : Slot) (node : Node) : Node :=
  { node with slots := fun i => if i = index then slot else node.slots i }

def setData (write : FieldWrite) (node : Node) : Node :=
  { node with data := update node.data write.bits.base write.bits.value }

end Node

-----------------------------------------------------------------------------------------
-- Operations
-----------------------------------------------------------------------------------------

/-- A builder with the objects that were initialised in it. -/
structure Build where
  st : MessageBuilder
  nodes : List Node

namespace Build

/-- The root's pointer is the one of a first object, in front of all others. -/
def rootPlace : StructBuilder where
  seg := 0
  dataOff := 0
  dataWords := 0
  ptrOff := 0
  ptrCount := 1

def start (segmentWords : Nat) : Build where
  st := initMessageBuilder segmentWords
  nodes := [.fresh rootPlace]

/-- A pointer is given a slot, with the objects that are new. -/
def put (b : Build) (node index : Nat) (st : MessageBuilder) (slot : Slot)
    (places : List StructBuilder) : Build where
  st := st
  nodes := b.nodes.modify node (.setSlot index slot) ++ places.map .fresh

def setField (b : Build) (node : Nat) (place : StructBuilder) (write : FieldWrite) : Build where
  st := write.apply place b.st
  nodes := b.nodes.modify node (.setData write)

/-- Elements past the end of a list, or of another size, are not set. -/
def listSet (b : Build) (node : Nat) (s : Scalar) (lb : ListBuilder) (i : Nat) (v : s.Value)
    : Build where
  st := s.listSet lb i v b.st
  nodes :=
    if i < lb.elemCount && lb.elemSize == s.elemSize then
      b.nodes.modify node (.setData (s.elementWrite i v))
    else b.nodes

end Build

/-- What a program may do to a message that it builds. -/
inductive BuildOp where
  | initStruct (node index dataWords ptrCount : Nat)
  | initList (node index elemSize elemCount : Nat)
  | initStructs (node index dataWords ptrCount elemCount : Nat)
  | write (node index : Nat) (content : Content)
  | copy (node index : Nat) (src : AnyPointer)
  | clear (node index : Nat)
  | setField (node : Nat) (write : FieldWrite)
  | listSet (node : Nat) (s : Scalar) (index : Nat) (value : s.Value)

/-- The operations on the pointers and fields of objects that exist, with sizes and counts that
pointers can say.
-/
inductive BuildStep (b : Build) : BuildOp → Build → Prop
  | initStruct {node index dataWords ptrCount : Nat} {target : Node}
    (found : b.nodes[node]? = some target) (inside : index < target.place.ptrCount)
    (smallData : dataWords < 2 ^ 16) (smallCount : ptrCount < 2 ^ 16)
    : BuildStep b (.initStruct node index dataWords ptrCount)
        (b.put node index (initStructPointer (target.pointer index) dataWords ptrCount b.st).2
          (.struct b.nodes.length)
          [(initStructPointer (target.pointer index) dataWords ptrCount b.st).1])
  | initList {node index elemSize elemCount : Nat} {target : Node}
    (found : b.nodes[node]? = some target) (inside : index < target.place.ptrCount)
    (plain : elemSize < elemSizeInlineComposite) (smallCount : elemCount < 2 ^ 29)
    : BuildStep b (.initList node index elemSize elemCount)
        (b.put node index (initListPointer (target.pointer index) elemSize elemCount b.st).2
          (.list elemSize elemCount b.nodes.length)
          [(initListPointer (target.pointer index) elemSize elemCount b.st).1.place])
  | initStructs {node index dataWords ptrCount elemCount : Nat} {target : Node}
    (found : b.nodes[node]? = some target) (inside : index < target.place.ptrCount)
    (smallData : dataWords < 2 ^ 16) (smallPointers : ptrCount < 2 ^ 16)
    (smallCount : elemCount < 2 ^ 30)
    : BuildStep b (.initStructs node index dataWords ptrCount elemCount)
        (b.put node index
          (initStructListPointer (target.pointer index) dataWords ptrCount elemCount b.st).2
          (.structs dataWords ptrCount elemCount b.nodes.length)
          (listStructBuilders
            (initStructListPointer (target.pointer index) dataWords ptrCount elemCount b.st).1))
  | write {node index : Nat} {content : Content} {target : Node}
    (found : b.nodes[node]? = some target) (inside : index < target.place.ptrCount)
    (fits : content.Fits)
    : BuildStep b (.write node index content)
        (b.put node index (content.write (target.pointer index) b.st) (.content content) [])
  | copy {node index : Nat} {src : AnyPointer} {target : Node}
    (found : b.nodes[node]? = some target) (inside : index < target.place.ptrCount) {fuel : Nat}
    {after : MessageBuilder}
    (copied : copyAnyPointer fuel (target.pointer index) src b.st = some after)
    : BuildStep b (.copy node index src) (b.put node index after (.copy src) [])
  | clear {node index : Nat} {target : Node} (found : b.nodes[node]? = some target)
    (inside : index < target.place.ptrCount)
    : BuildStep b (.clear node index)
        (b.put node index (clearPointer (target.pointer index) b.st) .null [])
  | setField {node : Nat} {write : FieldWrite} {target : Node}
    (found : b.nodes[node]? = some target) (fits : write.Fits target.place.dataWords)
    : BuildStep b (.setField node write) (b.setField node target.place write)
  | listSet {node index : Nat} {s : Scalar} {value : s.Value} {lb : ListBuilder} {target : Node}
    (found : b.nodes[node]? = some target) (place : lb.asStruct = target.place)
    : BuildStep b (.listSet node s index value) (b.listSet node s lb index value)

def buildSystem : Transition.System Build BuildOp where
  initial := fun b => ∃ segmentWords, b = .start segmentWords
  step := BuildStep

-----------------------------------------------------------------------------------------
-- Where pointers lead
-----------------------------------------------------------------------------------------

/-- The struct behind a pointer; one without words may have a pointer that is null. -/
structure StructFound (p : AnyPointerBuilder) (place : StructBuilder) (later : MessageBuilder)
    : Prop where
  room : place.dataOff + (place.dataWords + place.ptrCount) ≤ later.used place.seg
  decoded
    : (decodeStructPtr (p.reader later) = some (place.reader later)
        ∧ decodeStructPtrChecked (p.reader later)
          = acceptedAt later (place.seg, place.dataOff) (place.reader later))
      ∨ place.dataWords = 0 ∧ place.ptrCount = 0 ∧ resolvePointer (p.reader later) = none

/-- The list of structs behind a pointer. -/
structure StructsFound (p : AnyPointerBuilder) (lb : ListBuilder) (later : MessageBuilder)
    : Prop where
  composite : lb.inlineComposite = true
  decoded : decodeListPtr (p.reader later) = some (lb.reader later)
  checked : decodeListPtrChecked (p.reader later) = .ok (some (lb.reader later))

/-- What the readers find behind a pointer, of the objects that were placed. -/
def Leads (places : List StructBuilder) (later : MessageBuilder) (p : AnyPointerBuilder)
    : Slot → Prop
  | .null => readWord (buildMessage later) p.seg p.word = 0
  | .content content => content.ReadFrom (p.reader later)
  | .copy src => src.Acyclic ∧ ∀ depth, SameContent depth src (p.reader later)
  | .struct node => ∃ place, places[node]? = some place ∧ StructFound p place later
  | .list elemSize elemCount node =>
      ∃ lb : ListBuilder, lb.elemSize = elemSize ∧ lb.elemCount = elemCount
        ∧ lb.inlineComposite = false ∧ places[node]? = some lb.place ∧ ListFound p lb later later
  | .structs dataWords ptrCount elemCount first =>
      ∃ lb : ListBuilder, lb.structDataWords = dataWords ∧ lb.structPtrCount = ptrCount
        ∧ lb.elemCount = elemCount
        ∧ (∀ i < elemCount, places[first + i]? = some (lb.structBuilder i))
        ∧ StructsFound p lb later

/-- New objects leave the others where they are. -/
theorem Leads.append {places : List StructBuilder} {later : MessageBuilder} {p : AnyPointerBuilder}
    {slot : Slot} (leads : Leads places later p slot) (more : List StructBuilder)
    : Leads (places ++ more) later p slot := by
  have there {i : Nat} {place : StructBuilder} (found : places[i]? = some place)
      : (places ++ more)[i]? = some place := by
    rw [List.getElem?_append_left (List.getElem?_eq_some_iff.mp found).1, found]
  match slot, leads with
  | .null, leads | .content _, leads | .copy _, leads => exact leads
  | .struct _, ⟨place, found, leads⟩ => exact ⟨place, there found, leads⟩
  | .list _ _ _, ⟨lb, size, count, plain, found, leads⟩ =>
      exact ⟨lb, size, count, plain, there found, leads⟩
  | .structs _ _ _ _, ⟨lb, data, pointers, count, found, leads⟩ =>
      exact ⟨lb, data, pointers, count, fun i inside => there (found i inside), leads⟩

-----------------------------------------------------------------------------------------
-- The invariant
-----------------------------------------------------------------------------------------

namespace Build

def places (b : Build) : List StructBuilder :=
  b.nodes.map Node.place

/-- The words of all objects: what operations may still write. -/
def Shared (b : Build) (cell : Nat × Nat) : Prop :=
  ∃ place ∈ b.places, place.Cell cell

/-- A pointer leads to what it was given, whatever is written to other words of the objects. -/
def Holds (b : Build) (p : AnyPointerBuilder) (slot : Slot) : Prop :=
  store.Lasts b.Shared p.cell b.st
    (fun later => later.Valid → later.Addressable → Leads b.places later p slot)

/-- The objects have words of their own, which hold what the nodes say; pointers lead to objects
that are newer than their own.
-/
structure Laid (b : Build) : Prop where
  valid : b.st.Valid
  clean : b.st.Clean
  root : b.places[0]? = some rootPlace
  inside : ∀ place ∈ b.places, ∀ cell, place.Cell cell → store.owned b.st cell
  apart : b.places.Pairwise (fun place other => ∀ cell, place.Cell cell → ¬ other.Cell cell)
  split : ∀ place ∈ b.places, ∀ cell, place.DataCell cell → ¬ place.PointerCell cell
  data
    : ∀ node ∈ b.nodes, ∀ k < node.place.dataWords * 64,
        node.place.dataBits b.st k = node.data k
  slots
    : ∀ {i : Nat} {node : Node}, b.nodes[i]? = some node → ∀ j < node.place.ptrCount,
        b.Holds (node.pointer j) (node.slots j)
  newer
    : ∀ {i : Nat} {node : Node}, b.nodes[i]? = some node → ∀ j < node.place.ptrCount, ∀ child,
        (node.slots j).Child child → i < child ∧ child < b.nodes.length

end Build

-----------------------------------------------------------------------------------------
-- Writing to a pointer
-----------------------------------------------------------------------------------------

/-- A relation between all pairs holds of any two places. -/
theorem pairwise_getElem? {α : Type*} {relation : α → α → Prop} {items : List α}
    (apart : items.Pairwise relation) {i j : Nat} {item other : α} (here : items[i]? = some item)
    (there : items[j]? = some other) (before : i < j) : relation item other := by
  obtain ⟨inside, rfl⟩ := List.getElem?_eq_some_iff.mp here
  obtain ⟨inside', rfl⟩ := List.getElem?_eq_some_iff.mp there
  exact List.pairwise_iff_getElem.mp apart i j inside inside' before

namespace Build

variable {b : Build}

/-- Changing what a node holds moves nothing. -/
theorem places_modify (nodes : List Node) (node : Nat) {f : Node → Node}
    (same : ∀ node, (f node).place = node.place)
    : (nodes.modify node f).map Node.place = nodes.map Node.place := by
  apply List.ext_getElem?
  intro i
  rw [List.getElem?_map, List.getElem?_map, List.getElem?_modify]
  cases nodes[i]? with
  | none => rfl
  | some other =>
      simp only [Option.map_some, Option.map_eq_map]
      split_ifs
      · rw [same]
      · rfl

/-- The place of a node by its number. -/
theorem place_getElem? {i : Nat} {node : Node} (found : b.nodes[i]? = some node)
    : b.places[i]? = some node.place := by
  rw [places, List.getElem?_map, found, Option.map_some]

/-- No word belongs to two objects. -/
theorem Laid.cell_unique (laid : b.Laid) {i j : Nat} {node other : Node}
    (here : b.nodes[i]? = some node) (there : b.nodes[j]? = some other) {cell : Nat × Nat}
    (covers : node.place.Cell cell) (covers' : other.place.Cell cell) : i = j := by
  rcases Nat.lt_trichotomy i j with before | same | behind
  · exact absurd covers'
      (pairwise_getElem? laid.apart (place_getElem? here) (place_getElem? there) before _ covers)
  · exact same
  · exact absurd covers
      (pairwise_getElem? laid.apart (place_getElem? there) (place_getElem? here) behind _ covers')

/-- A pointer of a node lies in its pointer section. -/
theorem pointerCell {node : Node} {j : Nat} (inside : j < node.place.ptrCount)
    : node.place.PointerCell (node.pointer j).cell :=
  ⟨rfl, Nat.le_add_right .., Nat.add_lt_add_left inside _⟩

/-- The pointers of nodes are words of objects. -/
theorem Laid.shared_pointer {i : Nat} {node : Node} (found : b.nodes[i]? = some node) {j : Nat}
    (inside : j < node.place.ptrCount) : b.Shared (node.pointer j).cell :=
  ⟨_, List.mem_of_getElem? (place_getElem? found), .inr (pointerCell inside)⟩

/-- The pointers of nodes are allocated. -/
theorem Laid.owned_pointer (laid : b.Laid) {i : Nat} {node : Node}
    (found : b.nodes[i]? = some node) {j : Nat} (inside : j < node.place.ptrCount)
    : store.owned b.st (node.pointer j).cell :=
  laid.inside _ (List.mem_of_getElem? (place_getElem? found)) _ (.inr (pointerCell inside))

/-- A pointer has no word of anyone's data. -/
theorem Laid.pointer_not_data (laid : b.Laid) {i k : Nat} {node other : Node}
    (found : b.nodes[i]? = some node) {j : Nat} (inside : j < node.place.ptrCount)
    (there : b.nodes[k]? = some other) : ¬ other.place.DataCell (node.pointer j).cell := by
  intro covers
  obtain rfl := laid.cell_unique found there (.inr (pointerCell inside)) (.inl covers)
  obtain rfl := Option.some.inj (found.symm.trans there)
  exact laid.split _ (List.mem_of_getElem? (place_getElem? found)) _ covers (pointerCell inside)

/-- Two pointers are two words. -/
theorem Laid.pointer_unique (laid : b.Laid) {i k : Nat} {node other : Node}
    (found : b.nodes[i]? = some node) {j : Nat} (inside : j < node.place.ptrCount)
    (there : b.nodes[k]? = some other) {l : Nat} (inside' : l < other.place.ptrCount)
    (same : (node.pointer j).cell = (other.pointer l).cell) : i = k ∧ j = l := by
  have covers : other.place.Cell (node.pointer j).cell := same ▸ .inr (pointerCell inside')
  obtain rfl := laid.cell_unique found there (.inr (pointerCell inside)) covers
  obtain rfl := Option.some.inj (found.symm.trans there)
  have word : node.place.ptrOff + j = node.place.ptrOff + l := congrArg Prod.snd same
  exact ⟨rfl, Nat.add_left_cancel word⟩

/-- The data of a node is allocated. -/
theorem Laid.allocated (laid : b.Laid) {i : Nat} {node : Node} (found : b.nodes[i]? = some node)
    (some : 0 < node.place.dataWords)
    : node.place.dataOff + node.place.dataWords ≤ b.st.used node.place.seg := by
  have last : store.owned b.st (node.place.seg, node.place.dataOff + (node.place.dataWords - 1)) :=
    laid.inside _ (List.mem_of_getElem? (place_getElem? found)) _ (.inl ⟨rfl, by omega, by omega⟩)
  have last : node.place.dataOff + (node.place.dataWords - 1) < b.st.used node.place.seg := last
  omega

/-- The data of an object stays when no word of it is written. -/
theorem Laid.data_of_effect (laid : b.Laid) {i : Nat} {node : Node}
    (found : b.nodes[i]? = some node) {written : Nat × Nat → Prop} {st : MessageBuilder}
    (effect : store.Effect written b.st st)
    (outside : ∀ cell, written cell → ¬ node.place.DataCell cell)
    {k : Nat} (inside : k < node.place.dataWords * 64)
    : node.place.dataBits st k = node.data k := by
  rw [dataBits_of_effect (laid.allocated found (by omega)) effect outside inside]
  exact laid.data node (List.mem_of_getElem? found) k inside

/-- The words of new objects were free and are zero. -/
structure NewPlaces (before after : MessageBuilder) (places : List StructBuilder) : Prop where
  fresh : ∀ place ∈ places, ∀ cell, place.Cell cell → ¬ store.owned before cell
  owned : ∀ place ∈ places, ∀ cell, place.Cell cell → store.owned after cell
  zero : ∀ place ∈ places, ∀ cell, place.Cell cell → after.wordAt cell = wordBytes 0
  apart : places.Pairwise (fun place other => ∀ cell, place.Cell cell → ¬ other.Cell cell)
  split : ∀ place ∈ places, ∀ cell, place.DataCell cell → ¬ place.PointerCell cell

/-- Without new objects there is nothing to place. -/
theorem NewPlaces.nil (before after : MessageBuilder) : NewPlaces before after [] where
  fresh := fun _ member => absurd member List.not_mem_nil
  owned := fun _ member => absurd member List.not_mem_nil
  zero := fun _ member => absurd member List.not_mem_nil
  apart := .nil
  split := fun _ member => absurd member List.not_mem_nil

section Put

variable {node index : Nat} {target : Node} {st : MessageBuilder} {slot : Slot}
  {fresh : List StructBuilder}

/-- A step that sets a pointer adds its new objects at the end. -/
theorem places_put : (b.put node index st slot fresh).places = b.places ++ fresh := by
  rw [places, put, List.map_append, places_modify b.nodes node (f := Node.setSlot index slot)
    (fun _ => rfl), List.map_map]
  exact congrArg (b.places ++ ·) (List.map_id _)

/-- A node is one from before, with its slot, or it is new. -/
theorem put_getElem? {i : Nat} {found : Node}
    (there : (b.put node index st slot fresh).nodes[i]? = some found)
    : (∃ before, b.nodes[i]? = some before
        ∧ found = if node = i then before.setSlot index slot else before)
      ∨ b.nodes.length ≤ i ∧ ∃ place ∈ fresh, found = .fresh place := by
  rw [put] at there
  rcases Nat.lt_or_ge i b.nodes.length with old | new
  · rw [List.getElem?_append_left (by rwa [List.length_modify]), List.getElem?_modify] at there
    obtain ⟨before, present, rfl⟩ := Option.map_eq_some_iff.mp there
    exact .inl ⟨before, present, rfl⟩
  · rw [List.getElem?_append_right (by rwa [List.length_modify])] at there
    obtain ⟨place, member, rfl⟩ := List.mem_map.mp (List.mem_of_getElem? there)
    exact .inr ⟨new, place, member, rfl⟩

/-- The new objects by their numbers. -/
theorem place_put (i : Nat)
    : (b.put node index st slot fresh).places[b.nodes.length + i]? = fresh[i]? := by
  rw [places_put, places, List.getElem?_append_right (by rw [List.length_map]; omega),
    List.length_map, Nat.add_sub_cancel_left]

/-- A word of an object is one of an old or of a new one. -/
theorem shared_put {cell : Nat × Nat} (shared : (b.put node index st slot fresh).Shared cell)
    : b.Shared cell ∨ ∃ place ∈ fresh, place.Cell cell := by
  obtain ⟨place, member, covers⟩ := shared
  rw [places_put] at member
  rcases List.mem_append.mp member with old | new
  · exact .inl ⟨place, old, covers⟩
  · exact .inr ⟨place, new, covers⟩

/-- A word that was allocated before belongs to an old object. -/
theorem grown_put (new : NewPlaces b.st st fresh) {cell : Nat × Nat}
    (owned : store.owned b.st cell) (shared : (b.put node index st slot fresh).Shared cell)
    : b.Shared cell := by
  rcases shared_put shared with old | ⟨place, member, covers⟩
  · exact old
  · exact absurd owned (new.fresh place member cell covers)

/-- Another pointer leads where it did. -/
theorem Laid.holds_put (laid : b.Laid) (found : b.nodes[node]? = some target)
    (inside : index < target.place.ptrCount) (writes : WritesAt (target.pointer index) b.st st)
    (new : NewPlaces b.st st fresh) {i : Nat} {other : Node} (present : b.nodes[i]? = some other)
    {j : Nat} (inside' : j < other.place.ptrCount) (apart : ¬ (node = i ∧ index = j))
    : (b.put node index st slot fresh).Holds (other.pointer j) (other.slots j) := by
  have elsewhere (cell : Nat × Nat) (written : cell = (target.pointer index).cell)
      : b.Shared cell ∧ cell ≠ (other.pointer j).cell := by
    subst written
    refine ⟨Laid.shared_pointer found inside, fun same => apart ?_⟩
    exact laid.pointer_unique found inside present inside' same
  have lasts : store.Lasts (b.put node index st slot fresh).Shared (other.pointer j).cell st _ :=
    (laid.slots present j inside').step writes.effect elsewhere (fun _ => grown_put new)
  intro later effect valid addressable
  rw [places_put]
  exact (lasts later effect valid addressable).append fresh

/-- Setting a pointer leaves the data of all objects alone, and that of new objects is zero. -/
theorem Laid.data_put (laid : b.Laid) (found : b.nodes[node]? = some target)
    (inside : index < target.place.ptrCount) (writes : WritesAt (target.pointer index) b.st st)
    (new : NewPlaces b.st st fresh) {other : Node}
    (member : other ∈ (b.put node index st slot fresh).nodes) {k : Nat}
    (inData : k < other.place.dataWords * 64)
    : other.place.dataBits st k = other.data k := by
  obtain ⟨i, there⟩ := List.mem_iff_getElem?.mp member
  rcases put_getElem? there with ⟨before, present, rfl⟩ | ⟨-, place, fresh, rfl⟩
  · have same : before.place.dataBits st k = before.data k := by
      apply laid.data_of_effect present writes.effect
      · rintro cell rfl
        exact laid.pointer_not_data found inside present
      · split_ifs at inData <;> exact inData
    split_ifs <;> exact same
  · have inData : k < place.dataWords * 64 := inData
    have word : (place.dataOff * 64 + k) / 64 = place.dataOff + k / 64 := by omega
    have inWords : k / 64 < place.dataWords := by omega
    apply bitAt_of_zero
    show st.wordAt (place.seg, (place.dataOff * 64 + k) / 64) = _
    rw [word]
    exact new.zero place fresh _
      (.inl ⟨rfl, Nat.le_add_right .., Nat.add_lt_add_left inWords _⟩)

/-- The pointers of new objects are null. -/
theorem holds_fresh (new : NewPlaces b.st st fresh) {place : StructBuilder}
    (member : place ∈ fresh) {j : Nat} (inside : j < place.ptrCount)
    : (b.put node index st slot fresh).Holds ((Node.fresh place).pointer j)
        ((Node.fresh place).slots j) := by
  have covers : place.Cell (getPointerBuilder place j).cell :=
    .inr ⟨rfl, Nat.le_add_right .., Nat.add_lt_add_left inside _⟩
  intro later effect valid _
  have owned := new.owned place member _ covers
  have kept := effect.kept _ owned (fun both => both.2 rfl)
  exact readWord_of_wordAt valid (effect.grows _ owned)
    (kept.trans (new.zero place member _ covers))

/-- The pointer that was set holds what it was given, any other what it held. -/
theorem Laid.slots_put (laid : b.Laid) (found : b.nodes[node]? = some target)
    (inside : index < target.place.ptrCount) (writes : WritesAt (target.pointer index) b.st st)
    (new : NewPlaces b.st st fresh)
    (holds : (b.put node index st slot fresh).Holds (target.pointer index) slot) {i : Nat}
    {other : Node} (there : (b.put node index st slot fresh).nodes[i]? = some other) {j : Nat}
    (inside' : j < other.place.ptrCount)
    : (b.put node index st slot fresh).Holds (other.pointer j) (other.slots j) := by
  rcases put_getElem? there with ⟨before, present, rfl⟩ | ⟨-, place, member, rfl⟩
  · by_cases here : node = i ∧ index = j
    · obtain ⟨rfl, rfl⟩ := here
      obtain rfl := Option.some.inj (found.symm.trans present)
      rw [if_pos rfl]
      show (b.put node index st slot fresh).Holds (target.pointer index)
        (if index = index then slot else target.slots index)
      rwa [if_pos rfl]
    · have same
          : (if node = i then before.setSlot index slot else before).slots j
            = before.slots j := by
        split_ifs with same
        · exact if_neg (fun other => here ⟨same, other.symm⟩)
        · rfl
      have pointer : (if node = i then before.setSlot index slot else before).pointer j
          = before.pointer j := by
        split_ifs <;> rfl
      rw [same, pointer]
      refine laid.holds_put found inside writes new present ?_ here
      split_ifs at inside' <;> exact inside'
  · exact holds_fresh new member inside'

/-- Pointers lead to newer objects when the one that was set does. -/
theorem Laid.newer_put (laid : b.Laid)
    (newer
      : ∀ child, slot.Child child →
          b.nodes.length ≤ child ∧ child < b.nodes.length + fresh.length)
    {i : Nat} {other : Node} (there : (b.put node index st slot fresh).nodes[i]? = some other)
    {j : Nat} (inside' : j < other.place.ptrCount) {child : Nat}
    (leads : (other.slots j).Child child)
    : i < child ∧ child < b.nodes.length + fresh.length := by
  rcases put_getElem? there with ⟨before, present, rfl⟩ | ⟨-, place, member, rfl⟩
  · have old : i < b.nodes.length := (List.getElem?_eq_some_iff.mp present).1
    by_cases here : node = i ∧ j = index
    · rw [if_pos here.1] at leads
      have leads : (if j = index then slot else before.slots j).Child child := leads
      rw [if_pos here.2] at leads
      have child := newer child leads
      omega
    · have inside' : j < before.place.ptrCount := by
        split_ifs at inside' <;> exact inside'
      have leads : (before.slots j).Child child := by
        split_ifs at leads with same
        · have leads : (if j = index then slot else before.slots j).Child child := leads
          rwa [if_neg (fun other => here ⟨same, other⟩)] at leads
        · exact leads
      have child := laid.newer present j inside' child leads
      omega
  · exact leads.elim

/-- An operation on a pointer leaves all others, all data and the words of all objects alone. -/
theorem Laid.put (laid : b.Laid) (found : b.nodes[node]? = some target)
    (inside : index < target.place.ptrCount) (writes : WritesAt (target.pointer index) b.st st)
    (clean : st.Clean) (new : NewPlaces b.st st fresh)
    (newer
      : ∀ child, slot.Child child →
          b.nodes.length ≤ child ∧ child < b.nodes.length + fresh.length)
    (holds : (b.put node index st slot fresh).Holds (target.pointer index) slot)
    : (b.put node index st slot fresh).Laid := by
  have effect : store.Effect (fun cell => cell = (target.pointer index).cell) b.st st :=
    writes.effect
  have length : (b.put node index st slot fresh).nodes.length = b.nodes.length + fresh.length := by
    rw [Build.put, List.length_append, List.length_modify, List.length_map]
  refine ⟨writes.valid, clean, ?_, ?_, ?_, ?_, ?_, ?_, ?_⟩
  · rw [places_put, List.getElem?_append_left (List.getElem?_eq_some_iff.mp laid.root).1, laid.root]
  · rw [places_put]
    intro place member cell covers
    rcases List.mem_append.mp member with old | fresh
    · exact effect.grows _ (laid.inside place old cell covers)
    · exact new.owned place fresh cell covers
  · rw [places_put, List.pairwise_append]
    refine ⟨laid.apart, new.apart, fun place old other fresh cell covers covers' => ?_⟩
    exact new.fresh other fresh cell covers' (laid.inside place old cell covers)
  · rw [places_put]
    intro place member
    rcases List.mem_append.mp member with old | fresh
    · exact laid.split place old
    · exact new.split place fresh
  · exact fun _ member k inData => laid.data_put found inside writes new member inData
  · exact fun there j inside' => laid.slots_put found inside writes new holds there inside'
  · intro i other there j inside' child leads
    rw [length]
    exact laid.newer_put newer there inside' leads

end Put

-----------------------------------------------------------------------------------------
-- The operations
-----------------------------------------------------------------------------------------

section Operations

variable {node index : Nat} {target : Node}

/-- A content or a null is in words that no object has. -/
theorem Laid.put_content (laid : b.Laid) (found : b.nodes[node]? = some target)
    (inside : index < target.place.ptrCount) {st : MessageBuilder} {slot : Slot}
    (writes : WritesAt (target.pointer index) b.st st) (clean : st.Clean)
    (childless : ∀ child, ¬ slot.Child child)
    (settled
      : store.Settles (fun cell => cell = (target.pointer index).cell) b.st st
          (fun later =>
            later.Valid → later.Addressable →
              Leads (b.put node index st slot []).places later (target.pointer index) slot))
    : (b.put node index st slot []).Laid := by
  refine laid.put found inside writes clean (.nil _ _) (fun child leads => ?_) ?_
  · exact absurd leads (childless child)
  · refine settled.lasts (fun cell _ shared => ?_)
    rcases shared_put shared with ⟨place, member, covers⟩ | ⟨_, member, _⟩
    · exact laid.inside place member cell covers
    · exact absurd member List.not_mem_nil

/-- The words that are within a new object. -/
structure Within (p : AnyPointerBuilder) (words : Nat) (encode : Int → UInt64) (st : MessageBuilder)
    (fresh : List StructBuilder) : Prop where
  range
    : ∀ place ∈ fresh, ∀ cell, place.Cell cell →
        cell.1 = (initObject p words encode st).1.1
        ∧ (initObject p words encode st).1.2 ≤ cell.2
        ∧ cell.2 < (initObject p words encode st).1.2 + words
  apart : fresh.Pairwise (fun place other => ∀ cell, place.Cell cell → ¬ other.Cell cell)
  split : ∀ place ∈ fresh, ∀ cell, place.DataCell cell → ¬ place.PointerCell cell

/-- One object that takes the words allocated for it. -/
theorem Within.single {p : AnyPointerBuilder} {words : Nat} {encode : Int → UInt64}
    {st : MessageBuilder} {place : StructBuilder}
    (range
      : ∀ cell, place.Cell cell →
          cell.1 = (initObject p words encode st).1.1
          ∧ (initObject p words encode st).1.2 ≤ cell.2
          ∧ cell.2 < (initObject p words encode st).1.2 + words)
    (split : ∀ cell, place.DataCell cell → ¬ place.PointerCell cell)
    : Within p words encode st [place] where
  range := by
    rintro other member
    obtain rfl := List.mem_singleton.mp member
    exact range
  apart := List.pairwise_singleton _ _
  split := by
    rintro other member
    obtain rfl := List.mem_singleton.mp member
    exact split

section Objects

variable {words : Nat} {encode : Int → UInt64} {after : MessageBuilder} {fresh : List StructBuilder}
  {written : Nat × Nat → Prop}

/-- New objects are new words, also when a tag was put in front of them. -/
theorem Within.newPlaces {p : AnyPointerBuilder} {st : MessageBuilder}
    (within : Within p words encode st fresh) (valid : st.Valid) (clean : st.Clean)
    (owned : store.owned st p.cell)
    (effect : store.Effect written (initObject p words encode st).2 after)
    (outside : ∀ place ∈ fresh, ∀ cell, place.Cell cell → ¬ written cell)
    : NewPlaces st after fresh := by
  have places := initObject_places valid p words encode
  have room := initObject_owned valid p words encode
  have zero := (initObject_clean valid clean owned words encode).2
  have now {place : StructBuilder} (member : place ∈ fresh) {cell : Nat × Nat}
      (covers : place.Cell cell) : store.owned (initObject p words encode st).2 cell := by
    obtain ⟨seg, -, high⟩ := within.range place member cell covers
    show cell.2 < (initObject p words encode st).2.used cell.1
    rw [seg]
    omega
  have behind {place : StructBuilder} (member : place ∈ fresh) {cell : Nat × Nat}
      (covers : place.Cell cell)
      : Behind (initObject p words encode st).1.1 (initObject p words encode st).1.2 cell :=
    ⟨(within.range place member cell covers).1, (within.range place member cell covers).2.1⟩
  refine ⟨fun place member cell covers before => ?_, fun place member cell covers => ?_,
    fun place member cell covers => ?_, within.apart, within.split⟩
  · exact places.not_behind before (behind member covers)
  · exact effect.grows _ (now member covers)
  · exact (effect.kept _ (now member covers) (outside place member cell covers)).trans
      (zero cell (behind member covers))

/-- The pointer leads to the object while the words of the objects are written. -/
theorem Laid.pointsTo (laid : b.Laid) (found : b.nodes[node]? = some target)
    (inside : index < target.place.ptrCount)
    (within : Within (target.pointer index) words encode b.st fresh)
    (effect
      : store.Effect
          (Behind (initObject (target.pointer index) words encode b.st).1.1
            (initObject (target.pointer index) words encode b.st).1.2)
          (initObject (target.pointer index) words encode b.st).2 after)
    {slot : Slot} {later : MessageBuilder}
    (more
      : store.Effect
          (fun cell =>
            (b.put node index after slot fresh).Shared cell ∧ cell ≠ (target.pointer index).cell)
          after later)
    : PointsTo later (target.pointer index)
        (initObject (target.pointer index) words encode b.st).1 encode
      ∧ (initObject (target.pointer index) words encode b.st).1.2 + words
        ≤ later.used (initObject (target.pointer index) words encode b.st).1.1 := by
  have owned := laid.owned_pointer found inside
  have whole
      : store.Effect
          (fun cell =>
            (store.owned b.st cell ∧ cell ≠ (target.pointer index).cell)
            ∨ Behind (initObject (target.pointer index) words encode b.st).1.1
                (initObject (target.pointer index) words encode b.st).1.2 cell)
          (initObject (target.pointer index) words encode b.st).2 later := by
    refine (effect.widen (fun _ _ behind => .inr behind)).trans more (fun cell _ both => ?_)
    rcases shared_put both.1 with ⟨place, member, covers⟩ | ⟨place, member, covers⟩
    · exact .inl ⟨laid.inside place member cell covers, both.2⟩
    · obtain ⟨seg, low, -⟩ := within.range place member cell covers
      exact .inr ⟨seg, low⟩
  exact ⟨initObject_pointsTo laid.valid owned words encode whole,
    used_le_of_effect whole (initObject_owned laid.valid _ words encode)⟩

end Objects

/-- Clearing a pointer keeps the objects laid out. -/
theorem Laid.clear (laid : b.Laid) (found : b.nodes[node]? = some target)
    (inside : index < target.place.ptrCount)
    : (b.put node index (clearPointer (target.pointer index) b.st) .null []).Laid := by
  have owned := laid.owned_pointer found inside
  refine laid.put_content found inside (writeWordLE_writes laid.valid ..)
    (writeWordLE_clean laid.clean owned 0) (fun _ => id) ?_
  exact fun later effect valid _ => writeWordLE_settles laid.valid owned 0 later effect valid

/-- Copying to a pointer keeps the objects laid out. -/
theorem Laid.copy (laid : b.Laid) (found : b.nodes[node]? = some target)
    (inside : index < target.place.ptrCount) {fuel : Nat} {src : AnyPointer}
    {after : MessageBuilder}
    (copied : copyAnyPointer fuel (target.pointer index) src b.st = some after)
    : (b.put node index after (.copy src) []).Laid := by
  have owned := laid.owned_pointer found inside
  exact laid.put_content found inside
    ((copyAnyPointer_writes fuel _ _ _ _ laid.valid copied).writes laid.valid)
    (copyAnyPointer_clean fuel laid.valid laid.clean owned copied) (fun _ => id)
    (fun later effect valid addressable =>
      ⟨acyclic_of_copyAnyPointer fuel copied,
        copyAnyPointer_copiesContent fuel laid.valid owned copied later effect valid addressable⟩)

/-- Writing content to a pointer keeps the objects laid out. -/
theorem Laid.write (laid : b.Laid) (found : b.nodes[node]? = some target)
    (inside : index < target.place.ptrCount) {content : Content} (fits : content.Fits)
    : (b.put node index (content.write (target.pointer index) b.st) (.content content) []).Laid :=
    by
  have owned := laid.owned_pointer found inside
  exact laid.put_content found inside (content.writes laid.valid _)
    (content.clean laid.valid laid.clean owned) (fun _ => id)
    (Content.settles fits laid.valid owned)

/-- A new struct takes the words behind its pointer's target. -/
theorem Laid.initStruct (laid : b.Laid) (found : b.nodes[node]? = some target)
    (inside : index < target.place.ptrCount) {dataWords ptrCount : Nat}
    (smallData : dataWords < 2 ^ 16) (smallCount : ptrCount < 2 ^ 16)
    : (b.put node index (initStructPointer (target.pointer index) dataWords ptrCount b.st).2
        (.struct b.nodes.length)
        [(initStructPointer (target.pointer index) dataWords ptrCount b.st).1]).Laid := by
  let encode (offset : Int) : UInt64 := encodeStructPointer offset dataWords ptrCount
  let sb := (initStructPointer (target.pointer index) dataWords ptrCount b.st).1
  have owned := laid.owned_pointer found inside
  have within : Within (target.pointer index) (dataWords + ptrCount) encode b.st [sb] := by
    refine .single (fun cell covers => ?_) (fun cell data pointers => ?_)
    · exact (covers_iff rfl ptrCount cell).mp ((sb.cell_iff cell).mp covers)
    · exact Nat.lt_irrefl _ (Nat.lt_of_lt_of_le data.2.2 pointers.2.1)
  refine laid.put found inside (initStructPointer_writes laid.valid _ dataWords ptrCount)
    (initObject_clean laid.valid laid.clean owned (dataWords + ptrCount) encode).1
    (within.newPlaces laid.valid laid.clean owned (.refl (fun _ => False) _) (fun _ _ _ _ => id))
    ?_ ?_
  · rintro child rfl
    exact ⟨Nat.le_refl _, Nat.lt_succ_self _⟩
  · intro later effect valid addressable
    obtain ⟨points, room⟩ := laid.pointsTo found inside within (.refl _ _) effect
    refine ⟨sb, place_put 0, room, ?_⟩
    · rcases decodeStructPtr_of_pointsTo points valid addressable room smallData smallCount with
        ⟨_, rfl, decoded, checked⟩ | ⟨noData, noPointers, none⟩
      · exact .inl ⟨decoded, checked⟩
      · exact .inr ⟨noData, noPointers, none.1⟩

/-- A new list takes the words behind its pointer's target. -/
theorem Laid.initList (laid : b.Laid) (found : b.nodes[node]? = some target)
    (inside : index < target.place.ptrCount) {elemSize elemCount : Nat}
    (plain : elemSize < elemSizeInlineComposite) (smallCount : elemCount < 2 ^ 29)
    : (b.put node index (initListPointer (target.pointer index) elemSize elemCount b.st).2
        (.list elemSize elemCount b.nodes.length)
        [(initListPointer (target.pointer index) elemSize elemCount b.st).1.place]).Laid := by
  let encode (offset : Int) : UInt64 := encodeListPointer offset elemSize elemCount
  let lb := (initListPointer (target.pointer index) elemSize elemCount b.st).1
  have owned := laid.owned_pointer found inside
  have words := initListWords_eq plain elemCount
  have within
      : Within (target.pointer index) (initListWords elemSize elemCount) encode b.st
          [lb.place] := by
    by_cases isPointer : elemSize = elemSizePointer
    · have place : lb.place = _ := if_pos isPointer
      have count : initListWords elemSize elemCount = elemCount := words.trans (isPointer ▸ rfl)
      rw [place]
      refine .single (fun cell covers => ?_) (fun cell data _ => ?_)
      · rcases covers with ⟨seg, low, high⟩ | ⟨seg, low, high⟩
        · exact absurd (Nat.lt_of_le_of_lt low high) (Nat.lt_irrefl _)
        · exact ⟨seg, low, Nat.lt_of_lt_of_eq high (congrArg (lb.startWord + ·) count.symm)⟩
      · exact Nat.lt_irrefl _ (Nat.lt_of_le_of_lt data.2.1 data.2.2)
    · have place : lb.place = lb.asStruct := if_neg isPointer
      rw [place]
      refine .single (fun cell covers => ?_) (fun cell _ pointers => ?_)
      · rcases covers with ⟨seg, low, high⟩ | ⟨seg, low, high⟩
        · exact ⟨seg, low, Nat.lt_of_lt_of_eq high (congrArg (lb.startWord + ·) words.symm)⟩
        · exact absurd (Nat.lt_of_le_of_lt low high) (Nat.lt_irrefl _)
      · exact Nat.lt_irrefl _ (Nat.lt_of_le_of_lt pointers.2.1 pointers.2.2)
  refine laid.put found inside (initListPointer_writes laid.valid _ elemSize elemCount)
    (initListPointer_clean laid.valid laid.clean owned elemSize elemCount)
    (within.newPlaces laid.valid laid.clean owned (.refl (fun _ => False) _) (fun _ _ _ _ => id))
    ?_ ?_
  · rintro child rfl
    exact ⟨Nat.le_refl _, Nat.lt_succ_self _⟩
  · intro later effect valid addressable
    obtain ⟨points, room⟩ := laid.pointsTo found inside within (.refl _ _) effect
    have room : lb.startWord + listDataWords elemSize elemCount ≤ later.used lb.seg :=
      Nat.le_trans (Nat.le_of_eq (congrArg (lb.startWord + ·) words.symm)) room
    obtain ⟨_, rfl, decoded, checked⟩ :=
      decodeListPtr_of_pointsTo points valid addressable room plain smallCount
    exact ⟨lb, rfl, rfl, rfl, place_put 0, decoded, checked, room, fun _ _ _ => rfl⟩

/-- The builders of a list of structs by their numbers. -/
theorem listStructBuilders_eq {lb : ListBuilder} (composite : lb.inlineComposite = true)
    : listStructBuilders lb = (List.range lb.elemCount).map lb.structBuilder := by
  rw [listStructBuilders, if_pos composite]
  apply List.map_congr_left
  intro i _
  rw [elementBase_eq]
  rfl

/-- The words of one element of a list of structs. -/
theorem structBuilder_cell_iff {lb : ListBuilder} {i : Nat} {cell : Nat × Nat}
    : (lb.structBuilder i).Cell cell
      ↔ cell.1 = lb.seg
        ∧ lb.startWord + i * (lb.structDataWords + lb.structPtrCount) ≤ cell.2
        ∧ cell.2 < lb.startWord + (i + 1) * (lb.structDataWords + lb.structPtrCount) :=
  ((lb.structBuilder i).cell_iff cell).trans (structBuilder_covers_iff lb i cell)

/-- The elements of a list of structs lie behind its tag, apart from each other. -/
theorem within_structBuilders {p : AnyPointerBuilder} {words elemCount : Nat}
    {encode : Int → UInt64} {st : MessageBuilder} {lb : ListBuilder}
    (seg : lb.seg = (initObject p words encode st).1.1)
    (start : lb.startWord = (initObject p words encode st).1.2 + 1)
    (room : 1 + elemCount * (lb.structDataWords + lb.structPtrCount) ≤ words)
    : Within p words encode st ((List.range elemCount).map lb.structBuilder) := by
  refine ⟨?_, ?_, ?_⟩
  · intro place member cell covers
    obtain ⟨i, inside, rfl⟩ := List.mem_map.mp member
    have upTo
        : (i + 1) * (lb.structDataWords + lb.structPtrCount)
          ≤ elemCount * (lb.structDataWords + lb.structPtrCount) :=
      Nat.mul_le_mul_right _ (List.mem_range.mp inside)
    obtain ⟨same, low, high⟩ := structBuilder_cell_iff.mp covers
    exact ⟨same.trans seg, by omega, by omega⟩
  · rw [List.pairwise_map]
    refine List.pairwise_lt_range.imp (fun {i j} before cell here there => ?_)
    have apart := structBuilder_apart lb before (((lb.structBuilder i).cell_iff cell).mp here)
    exact apart (((lb.structBuilder j).cell_iff cell).mp there)
  · intro place member cell data pointers
    obtain ⟨i, -, rfl⟩ := List.mem_map.mp member
    exact Nat.lt_irrefl _ (Nat.lt_of_lt_of_le data.2.2 pointers.2.1)

/-- The structs of a new list stand behind its tag, each in its own words. -/
theorem Laid.initStructs (laid : b.Laid) (found : b.nodes[node]? = some target)
    (inside : index < target.place.ptrCount) {dataWords ptrCount elemCount : Nat}
    (smallData : dataWords < 2 ^ 16) (smallPointers : ptrCount < 2 ^ 16)
    (smallCount : elemCount < 2 ^ 30)
    : (b.put node index
        (initStructListPointer (target.pointer index) dataWords ptrCount elemCount b.st).2
        (.structs dataWords ptrCount elemCount b.nodes.length)
        (listStructBuilders
          (initStructListPointer (target.pointer index) dataWords ptrCount elemCount
            b.st).1)).Laid := by
  let elemWords := dataWords + ptrCount
  let words := 1 + elemCount * elemWords
  let encode (offset : Int) : UInt64 :=
    encodeListPointer offset elemSizeInlineComposite (elemCount * elemWords)
  let made := initObject (target.pointer index) words encode b.st
  let tag := encodeStructTag elemCount dataWords ptrCount
  let lb := (initStructListPointer (target.pointer index) dataWords ptrCount elemCount b.st).1
  have owned := laid.owned_pointer found inside
  have places := initObject_places laid.valid (target.pointer index) words encode
  have room : made.1.2 + words ≤ made.2.used made.1.1 :=
    initObject_owned laid.valid (target.pointer index) words encode
  have ownedTag : store.owned made.2 made.1 :=
    Nat.lt_of_lt_of_le (Nat.lt_add_of_pos_right (Nat.add_pos_left Nat.one_pos _)) room
  have tagged := writeWordLE_writes places.writes.valid made.1.1 made.1.2 tag
  have within
      : Within (target.pointer index) words encode b.st
          ((List.range elemCount).map lb.structBuilder) :=
    within_structBuilders rfl rfl (Nat.le_refl _)
  have behindTag
      : ∀ place ∈ (List.range elemCount).map lb.structBuilder, ∀ cell, place.Cell cell →
          cell ≠ made.1 := by
    rintro place member cell covers rfl
    obtain ⟨i, -, rfl⟩ := List.mem_map.mp member
    have low : made.1.2 + 1 + i * elemWords ≤ made.1.2 := (structBuilder_cell_iff.mp covers).2.1
    omega
  rw [listStructBuilders_eq rfl]
  refine laid.put found inside ?_ (writeWordLE_clean
      (initObject_clean laid.valid laid.clean owned words encode).1 ownedTag tag)
    (within.newPlaces laid.valid laid.clean owned tagged.effect behindTag) ?_ ?_
  · exact initStructListPointer_then laid.valid
      ⟨initStructListPointer_valid laid.valid _ dataWords ptrCount elemCount, .refl _ _⟩
  · intro child leads
    have leads : b.nodes.length ≤ child ∧ child < b.nodes.length + elemCount := leads
    rwa [List.length_map, List.length_range]
  · intro later effect valid addressable
    have tagBehind : store.Effect (Behind made.1.1 made.1.2) made.2
        (writeWordLE made.1.1 made.1.2 tag made.2) :=
      tagged.effect.widen (fun cell _ same => same ▸ ⟨rfl, Nat.le_refl _⟩)
    obtain ⟨points, inside'⟩ := laid.pointsTo found inside within tagBehind effect
    have tagWord : later.wordAt made.1 = wordBytes tag := by
      refine (effect.kept _ (tagged.effect.grows _ ownedTag) ?_).trans
        (wordAt_writeWordLE places.writes.valid ownedTag tag)
      rintro ⟨shared, -⟩
      rcases shared_put shared with ⟨place, member, covers⟩ | ⟨place, member, covers⟩
      · exact places.not_behind (laid.inside place member _ covers) ⟨rfl, Nat.le_refl _⟩
      · exact behindTag place member _ covers rfl
    obtain ⟨_, rfl, decoded, checked⟩ := decodeListPtr_of_pointsTo_tag points valid addressable
      inside' (Nat.le_refl _) tagWord smallCount smallData smallPointers
    refine ⟨lb, rfl, rfl, rfl, fun i present => ?_, rfl, decoded, checked⟩
    have builder
        : ((List.range elemCount).map lb.structBuilder)[i]? = some (lb.structBuilder i) := by
      rw [List.getElem?_map, List.getElem?_range present]
      rfl
    exact (place_put i).trans builder

/-- Setting a field moves nothing. -/
theorem places_setField {write : FieldWrite}
    : (b.setField node target.place write).places = b.places :=
  places_modify _ _ (fun _ => rfl)

/-- Setting a field changes one node. -/
theorem setField_getElem? {write : FieldWrite} {i : Nat} {found : Node}
    (there : (b.setField node target.place write).nodes[i]? = some found)
    : ∃ before, b.nodes[i]? = some before
        ∧ found = if node = i then before.setData write else before := by
  rw [setField, List.getElem?_modify] at there
  obtain ⟨before, present, rfl⟩ := Option.map_eq_some_iff.mp there
  exact ⟨before, present, rfl⟩

/-- Setting a field changes data of one object alone. -/
theorem Laid.setField (laid : b.Laid) (found : b.nodes[node]? = some target) {write : FieldWrite}
    (fits : write.Fits target.place.dataWords) : (b.setField node target.place write).Laid := by
  have writes := FieldWrite.writes laid.valid fits
  have member := List.mem_of_getElem? (place_getElem? found)
  have allocated := laid.allocated found (fits.words_pos)
  have places : (b.setField node target.place write).places = b.places := places_setField
  have shared : (b.setField node target.place write).Shared = b.Shared := by
    funext cell
    rw [Shared, Shared, places]
  have length : (b.setField node target.place write).nodes.length = b.nodes.length :=
    List.length_modify _ _ _
  have rest {i : Nat} {before after : Node}
      (same : after = if node = i then before.setData write else before)
      : after.place = before.place ∧ after.slots = before.slots := by
    split_ifs at same <;> exact same ▸ ⟨rfl, rfl⟩
  refine ⟨writes.valid, FieldWrite.clean laid.clean allocated fits, ?_, ?_, ?_, ?_, ?_, ?_, ?_⟩
  · rw [places]
    exact laid.root
  · rw [places]
    exact fun place member cell covers =>
      writes.effect.grows _ (laid.inside place member cell covers)
  · rw [places]
    exact laid.apart
  · rw [places]
    exact laid.split
  · intro other member k inData
    obtain ⟨i, there⟩ := List.mem_iff_getElem?.mp member
    obtain ⟨before, present, same⟩ := setField_getElem? there
    rw [(rest same).1] at inData ⊢
    by_cases here : node = i
    · subst here
      obtain rfl := Option.some.inj (found.symm.trans present)
      rw [same, if_pos rfl]
      show target.place.dataBits (write.apply target.place b.st) k
        = update target.data write.bits.base write.bits.value k
      rw [FieldWrite.dataBits_apply laid.valid allocated fits, update, update,
        laid.data target (List.mem_of_getElem? found) k inData]
    · rw [same, if_neg here]
      refine laid.data_of_effect present writes.effect (fun cell data data' => here ?_) inData
      exact laid.cell_unique found present (.inl data) (.inl data')
  · intro i other there j inside
    obtain ⟨before, present, same⟩ := setField_getElem? there
    obtain ⟨place, slots⟩ := rest same
    have pointer : other.pointer j = before.pointer j := by rw [Node.pointer, place, Node.pointer]
    rw [place] at inside
    rw [pointer, slots, Holds, shared, places]
    refine (laid.slots present j inside).step writes.effect (fun cell data => ?_) (fun _ _ => id)
    refine ⟨⟨target.place, member, .inl data⟩, ?_⟩
    rintro rfl
    exact laid.pointer_not_data present inside found data
  · intro i other there j inside child leads
    obtain ⟨before, present, same⟩ := setField_getElem? there
    obtain ⟨place, slots⟩ := rest same
    rw [place] at inside
    rw [slots] at leads
    rw [length]
    exact laid.newer present j inside child leads

/-- Setting an element of a list keeps the objects laid out. -/
theorem Laid.listSet (laid : b.Laid) (found : b.nodes[node]? = some target) {lb : ListBuilder}
    (place : lb.asStruct = target.place) (s : Scalar) (i : Nat) (v : s.Value)
    : (b.listSet node s lb i v).Laid := by
  rw [Build.listSet, Scalar.listSet_eq]
  split_ifs with passes
  · rw [Bool.and_eq_true, decide_eq_true_iff, beq_iff_eq] at passes
    rw [place]
    exact laid.setField found (place ▸ Scalar.elementWrite_fits passes.2 passes.1 v)
  · exact laid

end Operations

/-- A new builder has the root's pointer, which is null. -/
theorem laid_start (segmentWords : Nat) : (start segmentWords).Laid := by
  have root (cell : Nat × Nat) (covers : rootPlace.Cell cell) : cell = (0, 0) := by
    rcases covers with ⟨seg, low, high⟩ | ⟨seg, low, high⟩
    · exact absurd (Nat.lt_of_le_of_lt low high) (Nat.lt_irrefl _)
    · exact Prod.ext seg (Nat.lt_one_iff.mp high)
  have owned : store.owned (initMessageBuilder segmentWords) (0, 0) := Nat.zero_lt_one
  have zero : (initMessageBuilder segmentWords).wordAt (0, 0) = wordBytes 0 := by
    apply List.map_congr_left
    intro i inWord
    have byte : (initMessageBuilder segmentWords).byteAt 0 (0 * 8 + i) = 0 :=
      getD_replicate_zero _ _
    rw [byte]
    simp [shr64]
  have node {i : Nat} {found : Node} (there : (start segmentWords).nodes[i]? = some found)
      : found = .fresh rootPlace :=
    List.mem_singleton.mp (List.mem_of_getElem? there)
  refine ⟨initMessageBuilder_valid segmentWords, initMessageBuilder_clean segmentWords, rfl, ?_,
    List.pairwise_singleton _ _, ?_, ?_, ?_, ?_⟩
  · intro place member cell covers
    obtain rfl := List.mem_singleton.mp member
    exact root cell covers ▸ owned
  · intro place member cell data
    obtain rfl := List.mem_singleton.mp member
    exact absurd (Nat.lt_of_le_of_lt data.2.1 data.2.2) (Nat.lt_irrefl _)
  · intro found member k inData
    obtain rfl := List.mem_singleton.mp member
    exact absurd inData (Nat.not_lt_zero k)
  · intro i found there j inside later effect valid _
    obtain rfl := node there
    obtain rfl : j = 0 := Nat.lt_one_iff.mp inside
    have kept := effect.kept _ owned (fun both => both.2 rfl)
    exact readWord_of_wordAt valid (effect.grows _ owned) (kept.trans zero)
  · intro i found there j _ child leads
    obtain rfl := node there
    exact leads.elim

/-- A new message has one object, its root pointer. -/
theorem laid_of_initial {b : Build} (initial : buildSystem.initial b) : b.Laid := by
  obtain ⟨segmentWords, rfl⟩ := initial
  exact laid_start segmentWords

/-- Every operation keeps the objects laid out, by its cases. -/
theorem laid_of_step {before after : Build} {op : BuildOp}
    (step : buildSystem.step before op after) (laid : before.Laid)
    : after.Laid := by
  cases step with
  | initStruct found inside smallData smallCount =>
      exact laid.initStruct found inside smallData smallCount
  | initList found inside plain smallCount => exact laid.initList found inside plain smallCount
  | initStructs found inside smallData smallPointers smallCount =>
      exact laid.initStructs found inside smallData smallPointers smallCount
  | write found inside fits => exact laid.write found inside fits
  | copy found inside copied => exact laid.copy found inside copied
  | clear found inside => exact laid.clear found inside
  | setField found fits => exact laid.setField found fits
  | listSet found place => exact laid.listSet found place _ _ _

/-- In every state that operations reach, every object has words of its own, and holds what it was
given.
-/
theorem laid_of_reachable {b : Build} (reached : buildSystem.Reachable b) : b.Laid :=
  reached.invariant Laid laid_of_initial laid_of_step

end Build

/-- A struct at the root, with a word and a pointer. -/
def noteStruct : StructBuilder × MessageBuilder :=
  initStructPointer getRootPointer 1 1 (initMessageBuilder 8)

def note : Build :=
  (Build.start 8).put 0 0 noteStruct.2 (.struct 1) [noteStruct.1]

def noteNumber : FieldWrite where
  scalar := .uint16
  offset := 0
  mask := none
  value := (7 : UInt16)

def numberedNote : Build :=
  note.setField 1 noteStruct.1 noteNumber

/-- A struct with a number and three bytes. -/
def fullNote : Build :=
  numberedNote.put 1 0 (writeData (getPointerBuilder noteStruct.1 0) [1, 2, 3] numberedNote.st)
    (.content (.data [1, 2, 3])) []

/-- Three operations make the note. -/
theorem fullNote_reachable : buildSystem.Reachable fullNote := by
  have start : buildSystem.Reachable (.start 8) := .start ⟨8, rfl⟩
  have root : (Build.start 8).nodes[0]? = some (.fresh Build.rootPlace) := rfl
  have word : 1 < 2 ^ 16 := by decide
  have struct : BuildStep (.start 8) (.initStruct 0 0 1 1) note :=
    (BuildStep.initStruct root Nat.one_pos word word :)
  have number : BuildStep note (.setField 1 noteNumber) numberedNote :=
    .setField (show note.nodes[1]? = some (.fresh noteStruct.1) from rfl)
      (show 0 + 16 ≤ 1 * 64 by decide)
  have bytes : BuildStep numberedNote (.write 1 0 (.data [1, 2, 3])) fullNote :=
    .write (show numberedNote.nodes[1]? = some (.setData noteNumber (.fresh noteStruct.1)) from rfl)
      Nat.one_pos (show 3 < 2 ^ 29 by decide)
  exact ((start.next struct).next number).next bytes

/-- Witness: a struct with a number and three bytes. -/
theorem laid_of_reachable_note : fullNote.Laid :=
  Build.laid_of_reachable fullNote_reachable

end Capnp
