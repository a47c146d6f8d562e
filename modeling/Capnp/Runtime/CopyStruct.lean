import Capnp.Library.Fuel
import Capnp.Runtime.BuilderFrame

/-! Copying structs. The copy of a struct ends on an acyclic source, and the allocated words
that it changes are as many as the source is large, whatever the destination holds.
-/

namespace Capnp

open MessageBuilder

def StructReader.pointers (src : StructReader) : List AnyPointer :=
  (List.range src.ptrCount).map (getPointer src)

def ListPointer.pointers (src : ListPointer) : List AnyPointer :=
  if src.inlineComposite then
    (List.range src.elemCount).flatMap (fun i => (src.structReader i).pointers)
  else if src.elemSize = elemSizePointer then
    (List.range src.elemCount).map src.elementPointer
  else []

/-- The pointers of the object that a pointer leads to. -/
def AnyPointer.pointers (src : AnyPointer) : List AnyPointer :=
  match decodeStructPtr src with
  | some sr => sr.pointers
  | none =>
      match decodeListPtr src with
      | some lp => lp.pointers
      | none => []

/-- No chain of pointers that starts here is infinite. -/
def AnyPointer.Acyclic (src : AnyPointer) : Prop :=
  Acc (fun call pointer => call ∈ AnyPointer.pointers pointer) src

/-- No chain of pointers that starts in the struct is infinite. -/
def StructReader.Acyclic (src : StructReader) : Prop :=
  ∀ pointer ∈ src.pointers, Acc (fun call pointer => call ∈ AnyPointer.pointers pointer) pointer

variable {copy copy' : AnyPointerBuilder → AnyPointer → MessageBuilder → Option MessageBuilder}

/-- Loops whose steps agree agree, by induction on the items. -/
theorem foldlM_congr {σ ι : Type*} {step step' : σ → ι → Option σ} {items : List ι}
    (same : ∀ item ∈ items, ∀ state, step state item = step' state item) (state : σ)
    : items.foldlM step state = items.foldlM step' state := by
  induction items generalizing state with
  | nil => rfl
  | cons item rest ih =>
      have remaining := ih (fun other member => same other (List.mem_cons_of_mem _ member))
      rw [List.foldlM_cons, List.foldlM_cons, same item List.mem_cons_self]
      exact congrArg (step' state item >>= ·) (funext remaining)

/-- A loop whose steps return returns, by induction on the items. -/
theorem foldlM_isSome {σ ι : Type*} {step : σ → ι → Option σ} {items : List ι}
    (total : ∀ item ∈ items, ∀ state, (step state item).isSome) (state : σ)
    : (items.foldlM step state).isSome := by
  induction items generalizing state with
  | nil => rfl
  | cons item rest ih =>
      obtain ⟨next, first⟩ := Option.isSome_iff_exists.mp (total item List.mem_cons_self state)
      rw [List.foldlM_cons, first]
      exact ih (fun other member => total other (List.mem_cons_of_mem _ member)) next

/-- The pointers by their numbers. -/
theorem getPointer_mem_pointers {src : StructReader} {i : Nat}
    (inside : i ∈ List.range src.ptrCount) : getPointer src i ∈ src.pointers :=
  List.mem_map_of_mem inside

/-- Only the copies of the struct's own pointers matter. -/
theorem copyStructWith_congr {src : StructReader}
    (same : ∀ pointer ∈ src.pointers, ∀ dst st, copy dst pointer st = copy' dst pointer st)
    (dst : StructBuilder) (st : MessageBuilder)
    : copyStructWith copy dst src st = copyStructWith copy' dst src st :=
  foldlM_congr (fun _ inside _ => same _ (getPointer_mem_pointers inside) _ _) _

/-- A struct's copy ends when the copies of its pointers do. -/
theorem copyStructWith_isSome {src : StructReader}
    (total : ∀ pointer ∈ src.pointers, ∀ dst st, (copy dst pointer st).isSome)
    (dst : StructBuilder) (st : MessageBuilder) : (copyStructWith copy dst src st).isSome :=
  foldlM_isSome (fun _ inside _ => total _ (getPointer_mem_pointers inside) _ _) _

/-- The pointers of an element are among the list's. -/
theorem structReader_pointers_mem {src : ListPointer} (composite : src.inlineComposite = true)
    {i : Nat} (inside : i ∈ List.range src.elemCount) {pointer : AnyPointer}
    (member : pointer ∈ (src.structReader i).pointers) : pointer ∈ src.pointers := by
  rw [ListPointer.pointers, if_pos composite]
  exact List.mem_flatMap.mpr ⟨i, inside, member⟩

/-- The elements of a list of pointers are its pointers. -/
theorem elementPointer_mem {src : ListPointer} (composite : ¬ src.inlineComposite = true)
    (pointers : src.elemSize = elemSizePointer) {i : Nat} (inside : i ∈ List.range src.elemCount)
    : src.elementPointer i ∈ src.pointers := by
  rw [ListPointer.pointers, if_neg composite, if_pos pointers]
  exact List.mem_map_of_mem inside

/-- Only the copies of the list's own pointers matter. -/
theorem copyListWith_congr {src : ListPointer}
    (same : ∀ pointer ∈ src.pointers, ∀ dst st, copy dst pointer st = copy' dst pointer st)
    (dst : AnyPointerBuilder) (st : MessageBuilder)
    : copyListWith copy dst src st = copyListWith copy' dst src st := by
  simp only [copyListWith]
  split_ifs with composite pointers
  · apply foldlM_congr
    intro i inside st
    apply copyStructWith_congr
    exact fun pointer member => same pointer (structReader_pointers_mem composite inside member)
  · apply foldlM_congr
    exact fun i inside st => same _ (elementPointer_mem composite pointers inside) _ st
  · rfl
  · rfl

/-- A list's copy ends when the copies of its pointers do. -/
theorem copyListWith_isSome {src : ListPointer}
    (total : ∀ pointer ∈ src.pointers, ∀ dst st, (copy dst pointer st).isSome)
    (dst : AnyPointerBuilder) (st : MessageBuilder) : (copyListWith copy dst src st).isSome := by
  simp only [copyListWith]
  split_ifs with composite pointers
  · apply foldlM_isSome
    intro i inside st
    apply copyStructWith_isSome
    exact fun pointer member => total pointer (structReader_pointers_mem composite inside member)
  · apply foldlM_isSome
    exact fun i inside st => total _ (elementPointer_mem composite pointers inside) _ st
  · rfl
  · rfl

/-- One level of the copy asks for copies of the pointers below. -/
theorem copyAnyPointer_unfolds
    : Unfolds (fun fuel src (call : AnyPointerBuilder × MessageBuilder) =>
        copyAnyPointer fuel call.1 src call.2) AnyPointer.pointers where
  congr := by
    intro fuel more src same
    have same (pointer : AnyPointer) (member : pointer ∈ src.pointers) (dst : AnyPointerBuilder)
        (st : MessageBuilder)
        : copyAnyPointer fuel dst pointer st = copyAnyPointer more dst pointer st :=
      congrFun (same pointer member) (dst, st)
    funext ⟨dst, st⟩
    simp only [copyAnyPointer]
    rw [AnyPointer.pointers] at same
    split_ifs
    · rfl
    · rfl
    · cases target : decodeStructPtr src with
      | some sr =>
          rw [target] at same
          exact copyStructWith_congr same _ _
      | none =>
          cases list : decodeListPtr src with
          | some lp =>
              rw [target, list] at same
              exact copyListWith_congr same _ _
          | none => rfl
  total := by
    intro fuel src total ⟨dst, st⟩
    have total (pointer : AnyPointer) (member : pointer ∈ src.pointers) (dst : AnyPointerBuilder)
        (st : MessageBuilder) : (copyAnyPointer fuel dst pointer st).isSome :=
      total pointer member (dst, st)
    simp only [copyAnyPointer]
    rw [AnyPointer.pointers] at total
    split_ifs
    · rfl
    · rfl
    · cases target : decodeStructPtr src with
      | some sr =>
          rw [target] at total
          exact copyStructWith_isSome total _ _
      | none =>
          cases list : decodeListPtr src with
          | some lp =>
              rw [target, list] at total
              exact copyListWith_isSome total _ _
          | none => rfl

-----------------------------------------------------------------------------------------
-- What a copy writes
-----------------------------------------------------------------------------------------

/-- The words that a source of this size is copied to. -/
def StructBuilder.covers (dst : StructBuilder) (dataWords ptrCount : Nat) (cell : Nat × Nat)
    : Prop :=
  cell.1 = dst.seg
  ∧ ((dst.dataOff ≤ cell.2 ∧ cell.2 < dst.dataOff + dataWords)
    ∨ (dst.ptrOff ≤ cell.2 ∧ cell.2 < dst.ptrOff + ptrCount))

/-- Every copy that comes to an end has written its pointer. -/
def WritesPointer
    (copy : AnyPointerBuilder → AnyPointer → MessageBuilder → Option MessageBuilder) : Prop :=
  ∀ dst src st after, st.Valid → copy dst src st = some after → PointerWritten dst st after

/-- The first of the two loops. -/
def copyDataWords (dst : StructBuilder) (src : StructReader) (st : MessageBuilder)
    : MessageBuilder :=
  (List.range src.dataWords).foldl
    (fun st i =>
      writeWordLE dst.seg (dst.dataOff + i) (readWord src.msg src.seg (src.dataOff + i)) st)
    st

/-- The data words are written where the source has as many. -/
theorem copyDataWords_writes {st : MessageBuilder} (valid : st.Valid) (dst : StructBuilder)
    (src : StructReader)
    : Writes (fun cell => cell.1 = dst.seg ∧ dst.dataOff ≤ cell.2
          ∧ cell.2 < dst.dataOff + src.dataWords) st (copyDataWords dst src st) := by
  refine Writes.foldl ?_ valid
  intro i inside st valid
  rw [List.mem_range] at inside
  apply (writeWordLE_writes valid ..).widen
  intro cell _ word
  rw [word]
  exact ⟨rfl, by omega, by omega⟩

/-- The pointers are written where the source has as many. -/
theorem copyPointers_writes (pointers : WritesPointer copy) {dst : StructBuilder}
    {src : StructReader} {count : Nat} {st after : MessageBuilder} (valid : st.Valid)
    (copied
      : (List.range count).foldlM
          (fun st i => copy (getPointerBuilder dst i) (getPointer src i) st) st = some after)
    : Writes (fun cell => cell.1 = dst.seg ∧ dst.ptrOff ≤ cell.2 ∧ cell.2 < dst.ptrOff + count)
        st after := by
  refine Writes.foldlM ?_ valid copied
  intro i inside st next valid copied
  rw [List.mem_range] at inside
  apply ((pointers _ _ _ _ valid copied).writes valid).widen
  intro cell _ word
  rw [word]
  exact ⟨rfl, by simp [getPointerBuilder], by simpa [getPointerBuilder] using inside⟩

/-- A struct's copy writes as many words as the source has, whatever the destination's size. -/
theorem copyStructWith_writes (pointers : WritesPointer copy) {dst : StructBuilder}
    {src : StructReader} {st after : MessageBuilder} (valid : st.Valid)
    (copied : copyStructWith copy dst src st = some after)
    : Writes (dst.covers src.dataWords src.ptrCount) st after := by
  have words := copyDataWords_writes valid dst src
  have loop
      : (List.range src.ptrCount).foldlM
          (fun st i => copy (getPointerBuilder dst i) (getPointer src i) st)
          (copyDataWords dst src st) = some after :=
    copied
  apply (words.widen ?_).trans (copyPointers_writes pointers words.valid loop)
  · intro cell _ inside
    exact ⟨inside.1, .inr inside.2⟩
  · intro cell _ inside
    exact ⟨inside.1, .inl inside.2⟩

/-- Elements of a list that lies behind the allocated words. -/
theorem listStructBuilders_covers {lb : ListBuilder} (composite : lb.inlineComposite = true)
    {i : Nat} (inside : i < lb.elemCount) (default : StructBuilder) {cell : Nat × Nat}
    {dataWords ptrCount : Nat}
    (covers : ((listStructBuilders lb).getD i default).covers dataWords ptrCount cell)
    : cell.1 = lb.seg ∧ lb.startWord ≤ cell.2 := by
  simp only [listStructBuilders, if_pos composite, List.getD_eq_getElem?_getD, List.getElem?_map,
    List.getElem?_range inside, Option.map_some, Option.getD_some, StructBuilder.covers] at covers
  split_ifs at covers <;> omega

/-- The builder of an element points at its word. -/
theorem listPointerBuilders_inside {lb : ListBuilder} (composite : lb.inlineComposite = false)
    (pointers : lb.elemSize = elemSizePointer) {i : Nat} (inside : i < lb.elemCount)
    (default : AnyPointerBuilder)
    : (listPointerBuilders lb).getD i default = { seg := lb.seg, word := lb.startWord + i } := by
  simp [listPointerBuilders, composite, pointers, inside]

/-- A list's copy changes one old word, its pointer's. -/
theorem copyListWith_writes (pointers : WritesPointer copy) {dst : AnyPointerBuilder}
    {src : ListPointer} {st after : MessageBuilder} (valid : st.Valid)
    (copied : copyListWith copy dst src st = some after) : PointerWritten dst st after := by
  rw [copyListWith] at copied
  split_ifs at copied with composite isPointer
  · have places := initObject_places valid dst
      (1 + src.elemCount * (src.structDataWords + src.structPtrCount))
      (fun offset => encodeListPointer offset elemSizeInlineComposite
        (src.elemCount * (src.structDataWords + src.structPtrCount)))
    apply PointerWritten.object _ _ (fun offset => encodeListPointer_tag offset _ _)
    have tagged := places.writeWordLE
      (encodeStructTag src.elemCount src.structDataWords src.structPtrCount)
    apply tagged.trans (Writes.foldlM ?_ tagged.valid copied) (fun _ _ => id)
    intro i inside st next valid copied
    apply (copyStructWith_writes pointers valid copied).widen
    intro cell _ covers
    obtain ⟨same, behind⟩ := listStructBuilders_covers rfl (List.mem_range.mp inside) _ covers
    exact ⟨same, Nat.le_of_succ_le behind⟩
  · have places := initObject_places valid dst (initListWords elemSizePointer src.elemCount)
      (fun offset => encodeListPointer offset elemSizePointer src.elemCount)
    apply PointerWritten.object _ _ (fun offset => encodeListPointer_tag offset _ _)
    apply Writes.foldlM ?_ places.writes.valid copied
    intro i inside st next valid copied
    apply ((pointers _ _ _ _ valid copied).writes valid).widen
    intro cell _ word
    rw [listPointerBuilders_inside rfl rfl (List.mem_range.mp inside)] at word
    rw [word]
    exact ⟨rfl, Nat.le_add_right ..⟩
  · have places := initObject_places valid dst (initListWords src.elemSize src.elemCount)
      (fun offset => encodeListPointer offset src.elemSize src.elemCount)
    apply PointerWritten.object _ _ (fun offset => encodeListPointer_tag offset _ _)
    simp only [initListPointer] at copied
    split_ifs at copied with content
    · obtain rfl := Option.some.inj copied
      apply (writeBytesAt_writes places.writes.valid ..).widen
      exact fun cell _ inside => ⟨inside.1, inside.2.1⟩
    · obtain rfl := Option.some.inj copied
      exact ⟨places.writes.valid, .refl _ _⟩

/-- The words of a new struct are those that were allocated for it. -/
theorem initStructPointer_covers {p : AnyPointerBuilder} {dataWords ptrCount : Nat}
    {st : MessageBuilder} {cell : Nat × Nat}
    (covers : (initStructPointer p dataWords ptrCount st).1.covers dataWords ptrCount cell)
    : cell.1 = (initObject p (dataWords + ptrCount)
          (fun offset => encodeStructPointer offset dataWords ptrCount) st).1.1
      ∧ (initObject p (dataWords + ptrCount)
          (fun offset => encodeStructPointer offset dataWords ptrCount) st).1.2 ≤ cell.2 := by
  unfold initStructPointer at covers
  generalize initObject p (dataWords + ptrCount)
    (fun offset => encodeStructPointer offset dataWords ptrCount) st = result at covers ⊢
  obtain ⟨same, ⟨behind, -⟩ | ⟨behind, -⟩⟩ := covers
  · exact ⟨same, behind⟩
  · exact ⟨same, Nat.le_of_add_right_le behind⟩

/-- A copy changes one old word, its pointer's, by induction on the fuel. -/
theorem copyAnyPointer_writes (fuel : Nat) : WritesPointer (copyAnyPointer fuel) := by
  induction fuel with
  | zero => exact fun _ _ _ _ _ copied => nomatch copied
  | succ fuel ih =>
      intro dst src st after valid copied
      simp only [copyAnyPointer] at copied
      split_ifs at copied with null capability
      · exact .word 0 (by decide) (Option.some.inj copied).symm
      · exact .word _ (encodeCapabilityPointer_tag _) (Option.some.inj copied).symm
      · cases target : decodeStructPtr src with
        | some sr =>
            rw [target] at copied
            apply PointerWritten.object (sr.dataWords + sr.ptrCount) _
              (fun offset => encodeStructPointer_tag offset sr.dataWords sr.ptrCount)
            have places := initObject_places valid dst (sr.dataWords + sr.ptrCount)
              (fun offset => encodeStructPointer offset sr.dataWords sr.ptrCount)
            apply (copyStructWith_writes ih places.writes.valid copied).widen
            exact fun cell _ covers => initStructPointer_covers covers
        | none =>
            cases list : decodeListPtr src with
            | some lp =>
                rw [target, list] at copied
                exact copyListWith_writes ih valid copied
            | none =>
                rw [target, list] at copied
                exact .word 0 (by decide) (Option.some.inj copied).symm

-----------------------------------------------------------------------------------------
-- What a copy leaves behind
-----------------------------------------------------------------------------------------

/-- The words of a range differ. -/
theorem nodup_words (seg start count : Nat)
    : ((List.range count).map (fun i => (seg, start + i))).Nodup := by
  apply List.Pairwise.map _ _ List.nodup_range
  intro i j differ same
  exact differ (by simpa using same)

/-- An allocated data word that the copy covers holds the source's word, unless a pointer was
copied over it.
-/
theorem copyStructWith_dataWord (pointers : WritesPointer copy) {dst : StructBuilder}
    {src : StructReader} {st after : MessageBuilder} (valid : st.Valid)
    (copied : copyStructWith copy dst src st = some after) {i : Nat} (inside : i < src.dataWords)
    (owned : store.owned st (dst.seg, dst.dataOff + i))
    (notPointer : dst.ptrOff + src.ptrCount ≤ dst.dataOff + i)
    : after.wordAt (dst.seg, dst.dataOff + i)
      = wordBytes (readWord src.msg src.seg (src.dataOff + i)) := by
  have words := copyDataWords_writes valid dst src
  have rest := copyPointers_writes pointers words.valid copied
  have loop
      : (List.range src.dataWords).foldlM
          (fun st i => some (writeWordLE dst.seg (dst.dataOff + i)
            (readWord src.msg src.seg (src.dataOff + i)) st)) st
        = some (copyDataWords dst src st) :=
    List.foldlM_pure
  rw [rest.wordAt_eq (words.effect.grows _ owned) (by simp; omega)]
  refine Store.Effect.foldlM_each (fun i => (dst.seg, dst.dataOff + i))
    (fun i word => word = wordBytes (readWord src.msg src.seg (src.dataOff + i)))
    (nodup_words ..) Valid ?_ valid loop i (List.mem_range.mpr inside) owned
  intro i _ st next valid wrote
  obtain rfl := Option.some.inj wrote
  have writes := writeWordLE_writes valid dst.seg (dst.dataOff + i)
    (readWord src.msg src.seg (src.dataOff + i))
  exact ⟨writes.valid, writes.effect, fun owned => wordAt_writeWordLE valid owned _⟩

/-- An allocated pointer word that the copy covers holds a pointer. -/
theorem copyStructWith_pointerWord (pointers : WritesPointer copy) {dst : StructBuilder}
    {src : StructReader} {st after : MessageBuilder} (valid : st.Valid)
    (copied : copyStructWith copy dst src st = some after) {i : Nat} (inside : i < src.ptrCount)
    (owned : store.owned st (dst.seg, dst.ptrOff + i))
    : after.wordAt (dst.seg, dst.ptrOff + i) ≠ wordBytes 7 := by
  have words := copyDataWords_writes valid dst src
  refine Store.Effect.foldlM_each (fun i => (dst.seg, dst.ptrOff + i))
    (fun _ word => word ≠ wordBytes 7) (nodup_words ..) Valid ?_ words.valid copied i
    (List.mem_range.mpr inside) (words.effect.grows _ owned)
  intro i _ st next valid copied
  have written := pointers _ _ _ _ valid copied
  exact ⟨(written.writes valid).valid, (written.writes valid).effect, written.tag valid⟩

-----------------------------------------------------------------------------------------
-- Copies that stay inside
-----------------------------------------------------------------------------------------

/-- The words of a struct lie together, in the allocated part of its segment. -/
structure StructBuilder.Allocated (dst : StructBuilder) (st : MessageBuilder) : Prop where
  pointers : dst.ptrOff = dst.dataOff + dst.dataWords
  inside : dst.ptrOff + dst.ptrCount ≤ st.used dst.seg

/-- The copy comes to an end, with a result that more fuel does not change. -/
def CopiesTo (dst : StructBuilder) (src : StructReader) (before after : MessageBuilder) : Prop :=
  ∃ fuel, ∀ more ≥ fuel, copyStruct more dst src before = some after

/-- No allocated word changes except those of the struct itself. -/
def StaysInside (dst : StructBuilder) (before after : MessageBuilder) : Prop :=
  ∀ cell, store.owned before cell → ¬ dst.covers dst.dataWords dst.ptrCount cell →
    after.wordAt cell = before.wordAt cell

/-- The copy of an acyclic pointer ends with enough fuel, by induction on what it leads to. -/
theorem copyAnyPointer_settles {src : AnyPointer} (acyclic : src.Acyclic)
    : Settles (fun fuel (call : AnyPointerBuilder × MessageBuilder) =>
        copyAnyPointer fuel call.1 src call.2) := by
  obtain ⟨fuel, settled⟩ := copyAnyPointer_unfolds.exists_settled acyclic
  have total := (settled fuel (Nat.le_refl _)).2
  refine ⟨fun call => (copyAnyPointer fuel call.1 src call.2).get (total call), fuel,
    fun more enough call => ?_⟩
  rw [Option.some_get]
  exact congrFun ((settled fuel (Nat.le_refl _)).1 more enough) call

/-- The copy of an acyclic struct gives a result, whatever the destination. -/
theorem copyStruct_settles {src : StructReader} (acyclic : src.Acyclic)
    : Settles (fun fuel (call : StructBuilder × MessageBuilder) =>
        copyStruct fuel call.1 src call.2) := by
  obtain ⟨fuel, settled⟩ := exists_fuel_forall (fun pointer member =>
    copyAnyPointer_unfolds.exists_settled (acyclic pointer member))
  have total (call : StructBuilder × MessageBuilder)
      : (copyStruct fuel call.1 src call.2).isSome :=
    copyStructWith_isSome (fun pointer member dst st =>
      (settled pointer member fuel (Nat.le_refl _)).2 (dst, st)) call.1 call.2
  refine ⟨fun call => (copyStruct fuel call.1 src call.2).get (total call), fuel,
    fun more enough call => ?_⟩
  rw [Option.some_get]
  apply copyStructWith_congr
  intro pointer member dst st
  exact congrFun ((settled pointer member fuel (Nat.le_refl _)).1 more enough) (dst, st)

/-- The copy of an acyclic struct ends. -/
theorem exists_copiesTo {src : StructReader} (acyclic : src.Acyclic) (dst : StructBuilder)
    (before : MessageBuilder) : ∃ after, CopiesTo dst src before after := by
  obtain ⟨result, fuel, copied⟩ := copyStruct_settles acyclic
  exact ⟨result (dst, before), fuel, fun more enough => copied more enough (dst, before)⟩

/-- The source fits the struct, or the words behind the struct are not allocated. -/
def CopyFits (dst : StructBuilder) (src : StructReader) (st : MessageBuilder) : Prop :=
  (src.dataWords ≤ dst.dataWords + dst.ptrCount ∧ src.ptrCount ≤ dst.ptrCount)
  ∨ st.used dst.seg ≤ dst.ptrOff + dst.ptrCount

/-- A source no larger than the destination is copied inside it. -/
theorem stays_inside_of_fits {dst : StructBuilder} {src : StructReader} {st after : MessageBuilder}
    (valid : st.Valid) (allocated : dst.Allocated st) (fits : CopyFits dst src st)
    (copied : CopiesTo dst src st after) : StaysInside dst st after := by
  obtain ⟨fuel, copied⟩ := copied
  have writes :=
    copyStructWith_writes (copyAnyPointer_writes fuel) valid (copied fuel (Nat.le_refl _))
  intro cell owned outside
  apply writes.wordAt_eq owned
  intro covers
  apply outside
  have inside : cell.2 < st.used cell.1 := owned
  have pointers := allocated.pointers
  obtain ⟨same, covers⟩ := covers
  rw [same] at inside
  refine ⟨same, ?_⟩
  rcases fits with ⟨words, count⟩ | last <;> omega

/-- A byte is not its successor. -/
theorem toUInt8_ne_succ (byte : UInt8) : byte ≠ byte + (1 : UInt64).toUInt8 := by
  intro same
  have value := congrArg UInt8.toNat same
  have bound := byte.toNat_lt
  have one : (1 : UInt64).toUInt8.toNat = 1 := rfl
  rw [UInt8.toNat_add, one] at value
  omega

/-- A copy that changes no allocated word behind the struct leaves any value there. -/
theorem copy_leaves_neighbour {dst : StructBuilder} {src : StructReader} {layout : MessageBuilder}
    (valid : layout.Valid)
    (stays
      : ∀ st : MessageBuilder, st.Valid → st.usedWords = layout.usedWords →
          ∃ after, CopiesTo dst src st after ∧ StaysInside dst st after)
    {cell : Nat × Nat} (owned : store.owned layout cell)
    (outside : ¬ dst.covers dst.dataWords dst.ptrCount cell) (w : UInt64)
    : ∃ (st : MessageBuilder) (fuel : Nat) (after : MessageBuilder), st.Valid ∧ store.owned st cell
        ∧ copyStruct fuel dst src st = some after ∧ after.wordAt cell = wordBytes w := by
  have writes := writeWordLE_writes valid cell.1 cell.2 w
  obtain ⟨after, ⟨fuel, copied⟩, inside⟩ := stays _ writes.valid rfl
  have kept := inside cell (writes.effect.grows _ owned) outside
  rw [wordAt_writeWordLE valid owned] at kept
  have ran := copied fuel (Nat.le_refl _)
  exact ⟨_, fuel, after, writes.valid, writes.effect.grows _ owned, ran, kept⟩

/-- A larger source is caught by a builder whose word behind the struct differs from what is
copied there.
-/
theorem fits_of_stays_inside {dst : StructBuilder} {src : StructReader} {layout : MessageBuilder}
    (valid : layout.Valid) (allocated : dst.Allocated layout)
    (stays
      : ∀ st : MessageBuilder, st.Valid → st.usedWords = layout.usedWords →
          ∃ after, CopiesTo dst src st after ∧ StaysInside dst st after)
    : CopyFits dst src layout := by
  by_contra large
  have pointers := allocated.pointers
  obtain ⟨large, behind⟩ := not_or.mp large
  have owned : store.owned layout (dst.seg, dst.ptrOff + dst.ptrCount) := Nat.not_le.mp behind
  have outside : ¬ dst.covers dst.dataWords dst.ptrCount (dst.seg, dst.ptrOff + dst.ptrCount) := by
    intro covers
    have inside := covers.2
    simp only at inside
    omega
  by_cases count : dst.ptrCount < src.ptrCount
  · obtain ⟨st, fuel, after, valid, owned, copied, kept⟩ :=
      copy_leaves_neighbour valid stays owned outside 7
    exact copyStructWith_pointerWord (copyAnyPointer_writes fuel) valid copied count owned kept
  · have position
        : dst.ptrOff + dst.ptrCount = dst.dataOff + (dst.dataWords + dst.ptrCount) := by
      omega
    rw [position] at owned outside
    let w := readWord src.msg src.seg (src.dataOff + (dst.dataWords + dst.ptrCount))
    obtain ⟨st, fuel, after, valid, owned, copied, kept⟩ :=
      copy_leaves_neighbour valid stays owned outside (w + 1)
    have copy := copyStructWith_dataWord (copyAnyPointer_writes fuel) valid copied (by omega) owned
      (by omega)
    rw [copy] at kept
    refine wordBytes_ne ?_ kept
    rw [UInt64.toUInt8_add]
    exact toUInt8_ne_succ _

/-- Copies stay inside a struct, for every content of the allocated words, exactly where the
source fits it or nothing is allocated behind it.
-/
theorem copyStruct_stays_inside_iff {layout : MessageBuilder} (valid : layout.Valid)
    {dst : StructBuilder} (allocated : dst.Allocated layout) {src : StructReader}
    (acyclic : src.Acyclic)
    : (∀ st : MessageBuilder, st.Valid → st.usedWords = layout.usedWords →
        ∃ after, CopiesTo dst src st after ∧ StaysInside dst st after)
      ↔ CopyFits dst src layout := by
  refine ⟨fits_of_stays_inside valid allocated, fun fits st valid same => ?_⟩
  obtain ⟨after, copied⟩ := exists_copiesTo acyclic dst st
  have used : st.used = layout.used := by
    funext seg
    rw [MessageBuilder.used, MessageBuilder.used, same]
  refine ⟨after, copied, stays_inside_of_fits valid ?_ ?_ copied⟩
  · exact ⟨allocated.pointers, used ▸ allocated.inside⟩
  · rw [CopyFits, used]
    exact fits

/-- A root struct and its two children of one word each, the second right behind the first. -/
def rootStruct : StructBuilder × MessageBuilder :=
  initStructPointer getRootPointer 0 2 (initMessageBuilder 8)

def firstChild : StructBuilder × MessageBuilder :=
  initStructPointer (getPointerBuilder rootStruct.1 0) 1 0 rootStruct.2

def secondChild : StructBuilder × MessageBuilder :=
  initStructPointer (getPointerBuilder rootStruct.1 1) 1 0 firstChild.2

/-- A struct of two words as a newer schema has it. -/
def newerChild : StructReader :=
  readStruct (getRoot
    { segments := [[0, 0, 0, 0, 2, 0, 0, 0, 1, 0, 0, 0, 0, 0, 0, 0, 2, 0, 0, 0, 0, 0, 0, 0]] })

/-- A new struct keeps a builder valid. -/
theorem initStructPointer_valid {st : MessageBuilder} (valid : st.Valid) (p : AnyPointerBuilder)
    (dataWords ptrCount : Nat) : (initStructPointer p dataWords ptrCount st).2.Valid :=
  (initObject_places valid p (dataWords + ptrCount)
    (fun offset => encodeStructPointer offset dataWords ptrCount)).writes.valid

/-- The two children's builder is valid. -/
theorem secondChild_valid : secondChild.2.Valid := by
  have root := initStructPointer_valid (initMessageBuilder_valid 8) getRootPointer 0 2
  exact initStructPointer_valid (initStructPointer_valid root _ _ _) _ _ _

/-- The first child's words are allocated. -/
theorem firstChild_allocated : firstChild.1.Allocated secondChild.2 where
  pointers := by decide
  inside := by decide

/-- The source has no pointers. -/
theorem newerChild_acyclic : newerChild.Acyclic := by
  have none : newerChild.pointers = [] := by decide
  intro pointer member
  rw [none] at member
  exact absurd member List.not_mem_nil

/-- Witness: the children's copies stay inside exactly where they fit. -/
theorem copyStruct_stays_inside_iff_children
    : (∀ st : MessageBuilder, st.Valid → st.usedWords = secondChild.2.usedWords →
        ∃ after, CopiesTo firstChild.1 newerChild st after ∧ StaysInside firstChild.1 st after)
      ↔ CopyFits firstChild.1 newerChild secondChild.2 :=
  copyStruct_stays_inside_iff secondChild_valid firstChild_allocated newerChild_acyclic

/-- The second word of the source lands in the second child. -/
theorem copyStruct_overruns
    : ¬ ∀ (st : MessageBuilder) (dst : StructBuilder) (src : StructReader), st.Valid →
        dst.Allocated st → src.Acyclic →
        ∃ after, CopiesTo dst src st after ∧ StaysInside dst st after := by
  intro always
  obtain ⟨after, ⟨fuel, copied⟩, inside⟩ :=
    always _ _ _ secondChild_valid firstChild_allocated newerChild_acyclic
  have owned : 4 < secondChild.2.used 0 := by decide
  have outside : ¬ firstChild.1.covers 1 0 (0, 4) := by
    unfold StructBuilder.covers
    decide
  have neighbour := inside (0, 4) owned outside
  have copied := copied fuel (Nat.le_refl _)
  obtain rfl : copyDataWords firstChild.1 newerChild secondChild.2 = after :=
    Option.some.inj copied
  exact absurd neighbour (by decide)

end Capnp
