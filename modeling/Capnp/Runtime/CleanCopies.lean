import Capnp.Runtime.CopyContent
import Capnp.Runtime.FreshObjects

/-! Copies in a builder whose free words are zero. They leave it so; and what is copied has no
cycle when its source has none, so that a copy may be copied again.
-/

namespace Capnp

open MessageBuilder

variable {copy : AnyPointerBuilder → AnyPointer → MessageBuilder → Option MessageBuilder}

-----------------------------------------------------------------------------------------
-- Free words
-----------------------------------------------------------------------------------------

/-- Every copy that comes to an end leaves the free words zero. -/
def CleansPointer
    (copy : AnyPointerBuilder → AnyPointer → MessageBuilder → Option MessageBuilder) : Prop :=
  ∀ {dst src st after}, st.Valid → st.Clean → store.owned st dst.cell →
    copy dst src st = some after → after.Clean

/-- Copied data words stay within allocated words, so the unused ones stay zero. -/
theorem copyDataWords_clean {dst : StructBuilder} {src : StructReader} {st : MessageBuilder}
    (valid : st.Valid) (clean : st.Clean)
    (owned : ∀ cell, dst.covers src.dataWords src.ptrCount cell → store.owned st cell)
    : (copyDataWords dst src st).Clean := by
  refine foldlM_clean (dst.covers src.dataWords src.ptrCount) ?_ valid clean owned
    (List.foldlM_pure (m := Option))
  rintro i inside state _ valid clean owned ⟨⟩
  have word := owned (dst.seg, dst.dataOff + i)
    ⟨rfl, .inl ⟨Nat.le_add_right .., Nat.add_lt_add_left (List.mem_range.mp inside) _⟩⟩
  exact ⟨(writeWordLE_writes valid ..).widen (fun _ _ _ => trivial), writeWordLE_clean clean word _⟩

/-- A copied struct leaves the unused words zero, if the copies of its pointers do. -/
theorem copyStructWith_clean (pointers : WritesPointer copy) (cleans : CleansPointer copy)
    {dst : StructBuilder} {src : StructReader} {st after : MessageBuilder} (valid : st.Valid)
    (clean : st.Clean)
    (owned : ∀ cell, dst.covers src.dataWords src.ptrCount cell → store.owned st cell)
    (copied : copyStructWith copy dst src st = some after) : after.Clean := by
  have words := copyDataWords_writes valid dst src
  have loop
      : (List.range src.ptrCount).foldlM
          (fun st i => copy (getPointerBuilder dst i) (getPointer src i) st)
          (copyDataWords dst src st) = some after :=
    copied
  refine foldlM_clean (dst.covers src.dataWords src.ptrCount) ?_ words.valid
    (copyDataWords_clean valid clean owned)
    (fun cell covers => words.effect.grows _ (owned cell covers)) loop
  intro i inside state next valid clean owned copied
  have pointer := owned (getPointerBuilder dst i).cell
    ⟨rfl, .inr ⟨Nat.le_add_right .., Nat.add_lt_add_left (List.mem_range.mp inside) _⟩⟩
  exact ⟨((pointers _ _ _ _ valid copied).writes valid).widen (fun _ _ _ => trivial),
    cleans valid clean pointer copied⟩

section Lists

variable {dst : AnyPointerBuilder} {src : ListPointer} {st after : MessageBuilder}

/-- A copied list of structs leaves the unused words zero, by its elements in turn. -/
theorem copyStructList_clean (pointers : WritesPointer copy) (cleans : CleansPointer copy)
    (valid : st.Valid) (clean : st.Clean) (owned : store.owned st dst.cell)
    (composite : src.inlineComposite = true)
    (copied : copyListWith copy dst src st = some after) : after.Clean := by
  let elemWords := src.structDataWords + src.structPtrCount
  let words := 1 + src.elemCount * elemWords
  let encode (offset : Int) : UInt64 :=
    encodeListPointer offset elemSizeInlineComposite (src.elemCount * elemWords)
  let place := (initObject dst words encode st).1
  let base := (initObject dst words encode st).2
  let lb := (initStructListPointer dst src.structDataWords src.structPtrCount src.elemCount st).1
  let tag := encodeStructTag src.elemCount src.structDataWords src.structPtrCount
  have places : Places (fun cell => cell = dst.cell) st (place, base) :=
    initObject_places valid dst words encode
  have room : place.2 + words ≤ base.used place.1 := initObject_owned valid dst words encode
  have ownedTag : store.owned base place :=
    Nat.lt_of_lt_of_le (Nat.lt_add_of_pos_right (Nat.add_pos_left Nat.one_pos _)) room
  have tagged := places.writeWordLE tag
  have start : (writeWordLE place.1 place.2 tag base).Clean :=
    writeWordLE_clean (initObject_clean valid clean owned words encode).1 ownedTag tag
  rw [copyListWith, if_pos composite] at copied
  refine foldlM_clean
    (fun cell =>
      ∃ i < src.elemCount, (lb.structBuilder i).covers src.structDataWords src.structPtrCount cell)
    ?_ tagged.valid start ?_ copied
  · intro i inside state next valid clean owned copied
    have inside := List.mem_range.mp inside
    rw [listStructBuilders_inside rfl inside] at copied
    have writes := copyStructWith_writes pointers valid copied
    refine ⟨writes.widen (fun _ _ _ => trivial), ?_⟩
    exact copyStructWith_clean pointers cleans valid clean
      (fun cell covers => owned cell ⟨i, inside, covers⟩) copied
  · rintro cell ⟨i, inside, covers⟩
    obtain ⟨same, -, below⟩ := (structBuilder_covers_iff lb i cell).mp covers
    have same : cell.1 = place.1 := same
    have below : cell.2 < place.2 + 1 + (i + 1) * elemWords := below
    have last : (i + 1) * elemWords ≤ src.elemCount * elemWords := Nat.mul_le_mul_right _ inside
    apply tagged.effect.grows
    show cell.2 < base.used cell.1
    rw [same]
    omega

/-- A copied list of pointers leaves the unused words zero, by its elements in turn. -/
theorem copyPointerList_clean (pointers : WritesPointer copy) (cleans : CleansPointer copy)
    (valid : st.Valid) (clean : st.Clean) (owned : store.owned st dst.cell)
    (composite : src.inlineComposite = false) (isPointer : src.elemSize = elemSizePointer)
    (copied : copyListWith copy dst src st = some after) : after.Clean := by
  let lb := (initListPointer dst elemSizePointer src.elemCount st).1
  let base := (initListPointer dst elemSizePointer src.elemCount st).2
  have start := (initListPointer_writes valid dst elemSizePointer src.elemCount).valid
  have room : lb.startWord + src.elemCount ≤ base.used lb.seg :=
    initListPointer_owned valid dst (by decide) src.elemCount
  rw [copyListWith, if_neg (by simp [composite]), if_pos isPointer] at copied
  refine foldlM_clean (fun cell => ∃ i < src.elemCount, cell = (lb.seg, lb.startWord + i)) ?_ start
    (initListPointer_clean valid clean owned elemSizePointer src.elemCount) ?_ copied
  · intro i inside state next valid clean owned copied
    have inside := List.mem_range.mp inside
    rw [listPointerBuilders_inside rfl rfl inside] at copied
    have writes := (pointers _ _ _ _ valid copied).writes valid
    exact
      ⟨writes.widen (fun _ _ _ => trivial),
        cleans valid clean (owned _ ⟨i, inside, rfl⟩) copied⟩
  · rintro _ ⟨i, inside, rfl⟩
    exact Nat.lt_of_lt_of_le (Nat.add_lt_add_left inside _) room

/-- A copied list of scalars leaves the unused words zero. -/
theorem copyPlainList_clean (valid : st.Valid) (clean : st.Clean) (owned : store.owned st dst.cell)
    (encodable : src.Encodable) (composite : src.inlineComposite = false)
    (notPointer : src.elemSize ≠ elemSizePointer)
    (copied : copyListWith copy dst src st = some after) : after.Clean := by
  let lb := (initListPointer dst src.elemSize src.elemCount st).1
  let base := (initListPointer dst src.elemSize src.elemCount st).2
  have start : base.Clean := initListPointer_clean valid clean owned src.elemSize src.elemCount
  have room : lb.startWord + listDataWords src.elemSize src.elemCount ≤ base.used lb.seg :=
    initListPointer_owned valid dst (encodable.plain composite).1 src.elemCount
  have copied
      : (if listDataWords src.elemSize src.elemCount > 0 then
            some (writeBytesAt lb.seg (lb.startWord * 8)
              (readBytes src.msg src.seg (src.startWord * 8)
                (listDataWords src.elemSize src.elemCount * 8)) base)
          else some base)
        = some after := by
    rw [copyListWith, if_neg (by simp [composite]), if_neg notPointer] at copied
    exact copied
  split_ifs at copied
  · obtain rfl := Option.some.inj copied
    apply writeBytesAt_clean start
    rw [length_readBytes]
    omega
  · obtain rfl := Option.some.inj copied
    exact start

/-- A copied list leaves the unused words zero, in each of the three shapes of a list. -/
theorem copyListWith_clean (pointers : WritesPointer copy) (cleans : CleansPointer copy)
    (valid : st.Valid) (clean : st.Clean) (owned : store.owned st dst.cell)
    (encodable : src.Encodable) (copied : copyListWith copy dst src st = some after)
    : after.Clean := by
  by_cases composite : src.inlineComposite = true
  · exact copyStructList_clean pointers cleans valid clean owned composite copied
  · rw [Bool.not_eq_true] at composite
    by_cases isPointer : src.elemSize = elemSizePointer
    · exact copyPointerList_clean pointers cleans valid clean owned composite isPointer copied
    · exact copyPlainList_clean valid clean owned encodable composite isPointer copied

end Lists

/-- Copies leave the free words zero, by induction on the fuel. -/
theorem copyAnyPointer_clean (fuel : Nat) : CleansPointer (copyAnyPointer fuel) := by
  induction fuel with
  | zero => exact fun _ _ _ copied => nomatch copied
  | succ fuel ih =>
      intro dst src st after valid clean owned copied
      simp only [copyAnyPointer] at copied
      split_ifs at copied with null capability
      · obtain rfl := Option.some.inj copied
        exact writeWordLE_clean clean owned _
      · obtain rfl := Option.some.inj copied
        exact writeWordLE_clean clean owned _
      · cases target : decodeStructPtr src with
        | some sr =>
            rw [target] at copied
            let encode (offset : Int) : UInt64 :=
              encodeStructPointer offset sr.dataWords sr.ptrCount
            let words := sr.dataWords + sr.ptrCount
            let base := (initObject dst words encode st).2
            have places := initObject_places valid dst words encode
            have room := initObject_owned valid dst words encode
            refine copyStructWith_clean (copyAnyPointer_writes fuel) ih places.writes.valid
              (initObject_clean valid clean owned words encode).1 (fun cell covers => ?_) copied
            obtain ⟨same, -, below⟩ := (covers_iff rfl ..).mp covers
            show cell.2 < base.used cell.1
            rw [same]
            exact Nat.lt_of_lt_of_le below room
        | none =>
            cases list : decodeListPtr src with
            | some lp =>
                rw [target, list] at copied
                exact copyListWith_clean (copyAnyPointer_writes fuel) ih valid clean owned
                  (encodable_of_decodeListPtr list) copied
            | none =>
                rw [target, list] at copied
                obtain rfl := Option.some.inj copied
                exact writeWordLE_clean clean owned _

-----------------------------------------------------------------------------------------
-- Cycles
-----------------------------------------------------------------------------------------

/-- A pointer is acyclic when all that it leads to is. -/
theorem acyclic_of_pointers {p : AnyPointer}
    (below : ∀ pointer ∈ p.pointers, pointer.Acyclic) : p.Acyclic :=
  .intro p below

/-- A pointer that leads nowhere leads into no cycle. -/
theorem acyclic_of_resolve_none {p : AnyPointer}
    (absent : resolvePointer p = none) : p.Acyclic := by
  obtain ⟨noStruct, noList⟩ := decode_of_resolve_none absent
  apply acyclic_of_pointers
  rw [AnyPointer.pointers, noStruct, noList]
  exact fun _ member => absurd member List.not_mem_nil

/-- A list's pointers are those of its elements. -/
theorem pointers_of_decodeListPtr {p : AnyPointer} {d : ListPointer}
    (decoded : decodeListPtr p = some d)
    : p.pointers = d.pointers := by
  have noStruct : decodeStructPtr p = none := by
    cases found : decodeStructPtr p with
    | none => rfl
    | some r => exact nomatch (decodeListPtr_of_decodeStructPtr found).symm.trans decoded
  rw [AnyPointer.pointers, noStruct, decoded]

/-- The pointers of what is in view. -/
def PointerView.pointers : PointerView → List AnyPointer
  | .null | .capability _ => []
  | .struct r => r.pointers
  | .list d => d.pointers

/-- The pointers behind a pointer are those of what it is seen as. -/
theorem pointers_view (p : AnyPointer) : p.pointers = p.view.pointers := by
  unfold AnyPointer.pointers AnyPointer.view
  simp only [beq_iff_eq]
  split_ifs with null capability
  · rw [(decode_of_resolve_none (resolvePointer_of_null null)).1,
      (decode_of_resolve_none (resolvePointer_of_null null)).2]
    rfl
  · rw [(decode_of_resolve_none (resolvePointer_of_capability capability)).1,
      (decode_of_resolve_none (resolvePointer_of_capability capability)).2]
    rfl
  · cases decodeStructPtr p with
    | none => cases decodeListPtr p <;> rfl
    | some r =>
        dsimp only
        split_ifs with empty
        · have count : r.ptrCount = 0 := by omega
          rw [StructReader.pointers, count]
          rfl
        · rfl

section SamePointers

variable {same : AnyPointer → AnyPointer → Prop}

/-- Structs that agree have the same pointers, one by one. -/
theorem SameStruct.same_pointers {a b : StructReader} (agree : SameStruct same a b)
    : List.Forall₂ same a.pointers b.pointers := by
  rw [StructReader.pointers, StructReader.pointers, agree.ptrCount, List.forall₂_map_left_iff,
    List.forall₂_map_right_iff, List.forall₂_same]
  exact fun i inside => agree.pointers i (List.mem_range.mp inside)

/-- Lists that agree have the same pointers, one by one. -/
theorem SameList.same_pointers {a b : ListPointer} (agree : SameList same a b)
    : List.Forall₂ same a.pointers b.pointers := by
  rw [ListPointer.pointers, ListPointer.pointers, agree.inlineComposite, agree.elemSize,
    agree.elemCount]
  split_ifs with composite isPointer
  · rw [List.flatMap_def, List.flatMap_def]
    apply List.rel_flatten
    rw [List.forall₂_map_left_iff, List.forall₂_map_right_iff, List.forall₂_same]
    exact fun i inside => (agree.structs composite i (List.mem_range.mp inside)).same_pointers
  · rw [List.forall₂_map_left_iff, List.forall₂_map_right_iff, List.forall₂_same]
    exact fun i inside => agree.pointers isPointer i (List.mem_range.mp inside)
  · exact .nil

/-- Views that agree have the same pointers, one by one. -/
theorem SameView.same_pointers {a b : PointerView} (agree : SameView same a b)
    : List.Forall₂ same a.pointers b.pointers := by
  cases agree with
  | null | capability => exact .nil
  | struct agree | list agree => exact agree.same_pointers

end SamePointers

/-- What has the content of an acyclic pointer is acyclic, by induction on its chains. -/
theorem acyclic_of_sameContent {a : AnyPointer} (acyclic : a.Acyclic) {b : AnyPointer}
    (same : ∀ depth, SameContent depth a b) : b.Acyclic := by
  induction acyclic generalizing b with
  | intro a _ ih =>
      have each (depth : Nat) : List.Forall₂ (SameContent depth) a.pointers b.pointers := by
        rw [pointers_view, pointers_view]
        exact SameView.same_pointers (same (depth + 1))
      refine .intro b (fun pointer member => ?_)
      obtain ⟨i, inside, rfl⟩ := List.mem_iff_getElem.mp member
      have inside' : i < a.pointers.length := (each 0).length_eq ▸ inside
      exact ih _ (List.getElem_mem inside') (fun depth => (each depth).get inside' inside)

/-- Each step of a loop that came to an end did so itself. -/
theorem exists_step_of_foldlM {σ ι : Type*} {step : σ → ι → Option σ} {items : List ι}
    {state after : σ} (ran : items.foldlM step state = some after)
    : ∀ item ∈ items, ∃ before next, step before item = some next := by
  induction items generalizing state with
  | nil => exact fun item member => absurd member List.not_mem_nil
  | cons first rest ih =>
      obtain ⟨middle, one, remaining⟩ := Option.bind_eq_some_iff.mp ran
      intro item member
      rcases List.mem_cons.mp member with rfl | member
      · exact ⟨state, middle, one⟩
      · exact ih remaining item member

section Ends

variable (ends : ∀ {dst src st after}, copy dst src st = some after → src.Acyclic)

include ends in
/-- A struct whose copy ends is acyclic, as the copies of its pointers end. -/
theorem acyclic_of_copyStructWith {dst : StructBuilder} {src : StructReader}
    {st after : MessageBuilder} (copied : copyStructWith copy dst src st = some after)
    : src.Acyclic := by
  have loop
      : (List.range src.ptrCount).foldlM
          (fun st i => copy (getPointerBuilder dst i) (getPointer src i) st)
          (copyDataWords dst src st) = some after :=
    copied
  intro pointer member
  obtain ⟨i, inside, rfl⟩ := List.mem_map.mp member
  obtain ⟨_, _, one⟩ := exists_step_of_foldlM loop i inside
  exact ends one

include ends in
/-- So are the pointers of a list whose copy ends. -/
theorem acyclic_of_copyListWith {dst : AnyPointerBuilder} {src : ListPointer}
    {st after : MessageBuilder} (copied : copyListWith copy dst src st = some after)
    : ∀ pointer ∈ src.pointers, pointer.Acyclic := by
  intro pointer member
  rw [copyListWith] at copied
  rw [ListPointer.pointers] at member
  split_ifs at copied member with composite isPointer
  · obtain ⟨i, inside, inElement⟩ := List.mem_flatMap.mp member
    obtain ⟨_, _, one⟩ := exists_step_of_foldlM copied i inside
    exact acyclic_of_copyStructWith ends one pointer inElement
  · obtain ⟨i, inside, rfl⟩ := List.mem_map.mp member
    obtain ⟨_, _, one⟩ := exists_step_of_foldlM copied i inside
    exact ends one
  all_goals exact absurd member List.not_mem_nil

end Ends

/-- A copy that comes to an end has followed all chains, by induction on the fuel. -/
theorem acyclic_of_copyAnyPointer (fuel : Nat) {dst : AnyPointerBuilder} {src : AnyPointer}
    {st after : MessageBuilder} (copied : copyAnyPointer fuel dst src st = some after)
    : src.Acyclic := by
  induction fuel generalizing dst src st after with
  | zero => exact nomatch copied
  | succ fuel ih =>
      simp only [copyAnyPointer, beq_iff_eq] at copied
      split_ifs at copied with null capability
      · exact acyclic_of_resolve_none (resolvePointer_of_null null)
      · exact acyclic_of_resolve_none (resolvePointer_of_capability capability)
      · apply acyclic_of_pointers
        rw [AnyPointer.pointers]
        cases target : decodeStructPtr src with
        | some sr =>
            rw [target] at copied
            exact acyclic_of_copyStructWith ih copied
        | none =>
            cases list : decodeListPtr src with
            | some lp =>
                rw [target, list] at copied
                exact acyclic_of_copyListWith ih copied
            | none => exact fun _ member => absurd member List.not_mem_nil

/-- The copy of a pointer comes to an end exactly when no chain of pointers from it is infinite. -/
theorem copyAnyPointer_ends_iff {src : AnyPointer} {dst : AnyPointerBuilder} {st : MessageBuilder}
    : (∃ fuel after, copyAnyPointer fuel dst src st = some after) ↔ src.Acyclic := by
  refine ⟨fun ⟨fuel, _, copied⟩ => acyclic_of_copyAnyPointer fuel copied, fun acyclic => ?_⟩
  obtain ⟨result, fuel, copied⟩ := copyAnyPointer_settles acyclic
  exact ⟨fuel, result (dst, st), copied fuel (Nat.le_refl _) (dst, st)⟩

end Capnp
