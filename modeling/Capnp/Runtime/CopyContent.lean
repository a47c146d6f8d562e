import Capnp.Runtime.ListElements
import Capnp.Runtime.SameContent

/-! A copied pointer has the content of its source: the copy is read as the source is, to
every depth, once its message is built, whatever was written elsewhere in between.
-/

namespace Capnp

open MessageBuilder WordFields

variable {copy : AnyPointerBuilder → AnyPointer → MessageBuilder → Option MessageBuilder}

/-- Every copy that comes to an end has the content of its source. -/
def CopiesContent
    (copy : AnyPointerBuilder → AnyPointer → MessageBuilder → Option MessageBuilder) : Prop :=
  ∀ {dst src st after}, st.Valid → store.owned st dst.cell → copy dst src st = some after →
    store.Settles (fun cell => cell = dst.cell) st after
      (fun later =>
        later.Valid → later.Addressable → ∀ depth, SameContent depth src (dst.reader later))

-----------------------------------------------------------------------------------------
-- Sizes that a reader finds
-----------------------------------------------------------------------------------------

/-- Sizes have room in the word that is written for a list of that kind. -/
structure ListPointer.Encodable (d : ListPointer) : Prop where
  composite
    : d.inlineComposite = true →
        d.elemSize = elemSizeInlineComposite ∧ d.elemCount < 2 ^ 30
        ∧ d.structDataWords < 2 ^ 16 ∧ d.structPtrCount < 2 ^ 16
  plain
    : d.inlineComposite = false →
        d.elemSize < elemSizeInlineComposite ∧ d.elemCount < 2 ^ 29
        ∧ d.structDataWords = 0 ∧ d.structPtrCount = 0

/-- The sizes of a struct that is read come from its pointer. -/
theorem sizes_of_decodeStructPtr {p : AnyPointer} {r : StructReader}
    (decoded : decodeStructPtr p = some r)
    : r.dataWords < 2 ^ 16 ∧ r.ptrCount < 2 ^ 16 ∧ r.ptrOff = r.dataOff + r.dataWords := by
  unfold decodeStructPtr at decoded
  cases resolved : resolvePointer p with
  | none => simp [resolved] at decoded
  | some target =>
      simp only [resolved] at decoded
      split_ifs at decoded
      obtain rfl := Option.some.inj decoded
      refine ⟨?_, ?_, rfl⟩
      · rw [wordDataWords_eq]
        exact Nat.mod_lt _ (by decide)
      · rw [wordPtrCount_eq]
        exact Nat.mod_lt _ (by decide)

/-- The sizes of a list that is read fit a pointer again. -/
theorem encodable_of_decodeListPtr {p : AnyPointer} {d : ListPointer}
    (decoded : decodeListPtr p = some d) : d.Encodable := by
  unfold decodeListPtr at decoded
  cases resolved : resolvePointer p with
  | none => simp [resolved] at decoded
  | some target =>
      simp only [resolved] at decoded
      split_ifs at decoded with kind composite tag
      · obtain rfl := Option.some.inj decoded
        refine ⟨fun _ => ⟨rfl, ?_, ?_, ?_⟩, fun other => absurd other.symm Bool.false_ne_true⟩
        · simp only [inlineCompositeList, tagElemCount_eq]
          exact Nat.mod_lt _ (by decide)
        · simp only [inlineCompositeList, wordDataWords_eq]
          exact Nat.mod_lt _ (by decide)
        · simp only [inlineCompositeList, wordPtrCount_eq]
          exact Nat.mod_lt _ (by decide)
      · obtain rfl := Option.some.inj decoded
        refine ⟨fun other => absurd other Bool.false_ne_true, fun _ => ⟨?_, ?_, rfl, rfl⟩⟩
        · have small : wordElemSize (readWord target.msg target.tagSeg target.tagWord) < 8 := by
            rw [wordElemSize_eq]
            exact Nat.mod_lt _ (by decide)
          have seven : elemSizeInlineComposite = 7 := rfl
          show wordElemSize _ < _
          omega
        · simp only [plainList, wordElemCount_eq]
          exact Nat.mod_lt _ (by decide)

-----------------------------------------------------------------------------------------
-- Words that are copied
-----------------------------------------------------------------------------------------

/-- Words of a builder that hold the words of a message are read as the same bytes. -/
theorem readBytes_of_wordAt {st : MessageBuilder} (valid : st.Valid) {seg start words : Nat}
    {msg : Message} {srcSeg srcStart : Nat}
    (copied
      : ∀ i < words, store.owned st (seg, start + i)
          ∧ st.wordAt (seg, start + i) = wordBytes (readWord msg srcSeg (srcStart + i)))
    : readBytes (buildMessage st) seg (start * 8) (words * 8)
      = readBytes msg srcSeg (srcStart * 8) (words * 8) := by
  apply List.map_congr_left
  intro k inside
  rw [List.mem_range] at inside
  obtain ⟨owned, word⟩ := copied (k / 8) (by omega)
  have owned : start + k / 8 < st.used seg := owned
  have inWord : k % 8 < 8 := Nat.mod_lt k (by decide)
  have place : start * 8 + k = (start + k / 8) * 8 + k % 8 := by omega
  have srcPlace : srcStart * 8 + k = (srcStart + k / 8) * 8 + k % 8 := by omega
  have byte := getD_wordAt st (seg, start + k / 8) inWord
  rw [word, readWord, wordBytes_wordOfBytes, List.getD_eq_getElem _ _ (by simpa using inWord),
    List.getElem_map, List.getElem_range] at byte
  rw [readByte_buildMessage valid (by omega), place, srcPlace]
  exact byte.symm

/-- A pointer that is written as one word holds it until it is written again. -/
theorem writeWordLE_settles {st : MessageBuilder} (valid : st.Valid) {p : AnyPointerBuilder}
    (owned : store.owned st p.cell) (w : UInt64)
    : store.Settles (fun cell => cell = p.cell) st (writeWordLE p.seg p.word w st)
        (fun later => later.Valid → readWord (buildMessage later) p.seg p.word = w) := by
  intro later effect valid'
  have owned' := (writeWordLE_writes valid p.seg p.word w).effect.grows _ owned
  apply readWord_of_wordAt valid' (effect.grows _ owned')
  exact (effect.kept _ owned' (fun both => both.2 rfl)).trans (wordAt_writeWordLE valid owned w)

/-- A capability pointer gives its capability. -/
theorem readCapability_of_readWord {p : AnyPointer} {cap : UInt32}
    (read : readWord p.msg p.seg p.word = encodeCapabilityPointer cap)
    : readCapability p = cap := by
  rw [readCapability, read]
  simp only [encodeCapabilityPointer_kind, if_true, encodeCapabilityPointer_index]

/-- The view of a pointer that is written as a capability's. -/
theorem view_eq_capability {p : AnyPointer} {cap : UInt32}
    (read : readWord p.msg p.seg p.word = encodeCapabilityPointer cap)
    : p.view = .capability cap := by
  have some := encodeCapabilityPointer_ne_zero cap
  rw [AnyPointer.view, readCapability_of_readWord read, read]
  simp only [beq_iff_eq, if_neg some, encodeCapabilityPointer_three, if_true]

/-- A cleared pointer stays null. -/
theorem clearPointer_settles {st : MessageBuilder} (valid : st.Valid) {p : AnyPointerBuilder}
    (owned : store.owned st p.cell)
    : store.Settles (fun cell => cell = p.cell) st (clearPointer p st)
        (fun later => later.Valid → (p.reader later).view = .null) :=
  fun later effect valid' =>
    view_eq_null_of_zero (writeWordLE_settles valid owned 0 later effect valid')

/-- A written capability stays there. -/
theorem writeCapability_settles {st : MessageBuilder} (valid : st.Valid) {p : AnyPointerBuilder}
    (owned : store.owned st p.cell) (cap : UInt32)
    : store.Settles (fun cell => cell = p.cell) st (writeCapability p cap st)
        (fun later => later.Valid → (p.reader later).view = .capability cap) :=
  fun later effect valid' =>
    view_eq_capability (writeWordLE_settles valid owned _ later effect valid')

-----------------------------------------------------------------------------------------
-- Structs
-----------------------------------------------------------------------------------------

/-- The words of a struct whose pointers stand right behind its data. -/
theorem covers_iff {dst : StructBuilder} {dataWords : Nat}
    (layout : dst.ptrOff = dst.dataOff + dataWords) (ptrCount : Nat) (cell : Nat × Nat)
    : dst.covers dataWords ptrCount cell
      ↔ cell.1 = dst.seg
        ∧ dst.dataOff ≤ cell.2
        ∧ cell.2 < dst.dataOff + (dataWords + ptrCount) := by
  rw [StructBuilder.covers, layout]
  exact and_congr_right (fun _ => by omega)

/-- The data words are those of the source before the pointers are copied. -/
theorem copyDataWords_word (pointers : WritesPointer copy) {dst : StructBuilder}
    {src : StructReader} {st : MessageBuilder} (valid : st.Valid) {i : Nat}
    (inside : i < src.dataWords) (owned : store.owned st (dst.seg, dst.dataOff + i))
    : (copyDataWords dst src st).wordAt (dst.seg, dst.dataOff + i)
      = wordBytes (readWord src.msg src.seg (src.dataOff + i)) := by
  have copied
      : copyStructWith copy { dst with ptrOff := 0 } { src with ptrCount := 0 } st
        = some (copyDataWords dst src st) :=
    rfl
  exact copyStructWith_dataWord pointers valid copied inside owned (Nat.zero_le _)

/-- The copy of a struct into one of its sizes: the data is not written again, and each pointer
has words of its own.
-/
theorem copyStructWith_content (pointers : WritesPointer copy) (content : CopiesContent copy)
    {dst : StructBuilder} {src : StructReader} {st after : MessageBuilder} (valid : st.Valid)
    (dataWords : dst.dataWords = src.dataWords) (ptrCount : dst.ptrCount = src.ptrCount)
    (layout : dst.ptrOff = dst.dataOff + src.dataWords)
    (owned : ∀ cell, dst.covers src.dataWords src.ptrCount cell → store.owned st cell)
    (copied : copyStructWith copy dst src st = some after)
    : store.Settles (dst.covers src.dataWords src.ptrCount) st after
        (fun later =>
          later.Valid → later.Addressable →
            ∀ depth, SameStruct (SameContent depth) src (dst.reader later)) := by
  have words := copyDataWords_writes valid dst src
  have loop
      : (List.range src.ptrCount).foldlM
          (fun st i => copy (getPointerBuilder dst i) (getPointer src i) st)
          (copyDataWords dst src st) = some after :=
    copied
  have rest := copyPointers_writes pointers words.valid loop
  have dataCell (i : Nat) (inside : i < src.dataWords)
      : dst.covers src.dataWords src.ptrCount (dst.seg, dst.dataOff + i) :=
    ⟨rfl, .inl ⟨Nat.le_add_right .., Nat.add_lt_add_left inside _⟩⟩
  have pointerCell (i : Nat) (inside : i < src.ptrCount)
      : dst.covers src.dataWords src.ptrCount (dst.seg, dst.ptrOff + i) :=
    ⟨rfl, .inr ⟨Nat.le_add_right .., Nat.add_lt_add_left inside _⟩⟩
  obtain ⟨-, settled⟩ := Store.Settles.foldlM
    (fun i cell => cell = (getPointerBuilder dst i).cell)
    (fun i later =>
      later.Valid → later.Addressable →
        ∀ depth, SameContent depth (getPointer src i) ((getPointerBuilder dst i).reader later))
    (List.pairwise_lt_range.imp (fun {i j} before cell here there => by
      have same := congrArg Prod.snd (here.symm.trans there)
      simp only [AnyPointerBuilder.cell, getPointerBuilder] at same
      omega))
    Valid
    (fun i _ state next valid region copied =>
      ⟨((pointers _ _ _ _ valid copied).writes valid).valid,
        ((pointers _ _ _ _ valid copied).writes valid).effect,
        content valid (region _ rfl) copied⟩)
    words.valid
    (fun i inside cell here => words.effect.grows _
      (here ▸ owned _ (pointerCell i (List.mem_range.mp inside))))
    loop
  intro later effect valid' addressable depth
  refine ⟨dataWords, ptrCount, ?_, fun i inside => ?_⟩
  · show readBytes (buildMessage later) dst.seg (dst.dataOff * 8) (dst.dataWords * 8) = _
    rw [dataWords]
    apply readBytes_of_wordAt valid'
    intro i inside
    have allocated := owned _ (dataCell i inside)
    have wrote := copyDataWords_word pointers valid inside allocated
    have allocated := words.effect.grows _ allocated
    have behind : ¬ (dst.ptrOff ≤ dst.dataOff + i) := by omega
    have kept := rest.wordAt_eq allocated (fun inside => behind inside.2.1)
    have allocated := rest.effect.grows _ allocated
    refine ⟨effect.grows _ allocated, ?_⟩
    rw [← wrote, ← kept]
    exact effect.kept _ allocated (fun both => both.2 (dataCell i inside))
  · refine settled i (List.mem_range.mpr inside) later (effect.widen ?_) valid' addressable depth
    rintro cell - ⟨before, outside⟩
    refine ⟨words.effect.grows _ before, ?_⟩
    rintro ⟨j, member, rfl⟩
    exact outside (pointerCell j (List.mem_range.mp member))

-----------------------------------------------------------------------------------------
-- Lists
-----------------------------------------------------------------------------------------

/-- The builder of one element of an inline-composite list. -/
def ListBuilder.structBuilder (lb : ListBuilder) (i : Nat) : StructBuilder :=
  let base := lb.startWord + i * (lb.structDataWords + lb.structPtrCount)
  { seg := lb.seg, dataOff := base, dataWords := lb.structDataWords,
    ptrOff := base + lb.structDataWords, ptrCount := lb.structPtrCount }

/-- Elements without words are where the list starts. -/
theorem elementBase_eq (start elemWords i : Nat)
    : (if elemWords = 0 then start else start + i * elemWords) = start + i * elemWords := by
  split_ifs with empty
  · rw [empty, Nat.mul_zero, Nat.add_zero]
  · rfl

/-- The builder of an element by its number. -/
theorem listStructBuilders_inside {lb : ListBuilder} (composite : lb.inlineComposite = true)
    {i : Nat} (inside : i < lb.elemCount) (default : StructBuilder)
    : (listStructBuilders lb).getD i default = lb.structBuilder i := by
  rw [listStructBuilders, if_pos composite, List.getD_eq_getElem _ _ (by simpa using inside),
    List.getElem_map, List.getElem_range, elementBase_eq]
  rfl

/-- Readers and builders agree on where an element lies. -/
theorem structReader_reader (lb : ListBuilder) (st : MessageBuilder) (i : Nat)
    : (lb.reader st).structReader i = (lb.structBuilder i).reader st := by
  rw [ListPointer.structReader, ListBuilder.reader, elementBase_eq]
  rfl

/-- Elements lie one behind the other. -/
theorem structBuilder_covers_iff (lb : ListBuilder) (i : Nat) (cell : Nat × Nat)
    : (lb.structBuilder i).covers lb.structDataWords lb.structPtrCount cell
      ↔ cell.1 = lb.seg
        ∧ lb.startWord + i * (lb.structDataWords + lb.structPtrCount) ≤ cell.2
        ∧ cell.2 < lb.startWord + (i + 1) * (lb.structDataWords + lb.structPtrCount) := by
  rw [covers_iff rfl, Nat.add_mul, Nat.one_mul, ← Nat.add_assoc lb.startWord]
  rfl

/-- Two elements share no word. -/
theorem structBuilder_apart (lb : ListBuilder) {i j : Nat} (before : i < j) {cell : Nat × Nat}
    (here : (lb.structBuilder i).covers lb.structDataWords lb.structPtrCount cell)
    : ¬ (lb.structBuilder j).covers lb.structDataWords lb.structPtrCount cell := by
  have later
      : (i + 1) * (lb.structDataWords + lb.structPtrCount)
        ≤ j * (lb.structDataWords + lb.structPtrCount) :=
    Nat.mul_le_mul_right _ before
  rw [structBuilder_covers_iff] at here ⊢
  omega

/-- The elements of a list of structs are copied each into its own words. -/
theorem copyElements_content (pointers : WritesPointer copy) (content : CopiesContent copy)
    (lb : ListBuilder) {src : ListPointer} {st after : MessageBuilder} (valid : st.Valid)
    (composite : lb.inlineComposite = true) (elemCount : lb.elemCount = src.elemCount)
    (dataWords : lb.structDataWords = src.structDataWords)
    (ptrCount : lb.structPtrCount = src.structPtrCount) (default : StructBuilder)
    (owned
      : ∀ i < src.elemCount, ∀ cell,
          (lb.structBuilder i).covers lb.structDataWords lb.structPtrCount cell →
            store.owned st cell)
    (copied
      : (List.range src.elemCount).foldlM
          (fun st i =>
            copyStructWith copy ((listStructBuilders lb).getD i default) (src.structReader i) st)
          st = some after)
    : Writes (Behind lb.seg lb.startWord) st after
      ∧ ∀ i < src.elemCount,
          store.Settles (Behind lb.seg lb.startWord) st after
            (fun later =>
              later.Valid → later.Addressable → ∀ depth,
                SameStruct (SameContent depth) (src.structReader i)
                  ((lb.structBuilder i).reader later)) := by
  obtain ⟨⟨valid', effect⟩, settled⟩ := Store.Settles.foldlM
    (fun i => (lb.structBuilder i).covers lb.structDataWords lb.structPtrCount)
    (fun i later =>
      later.Valid → later.Addressable → ∀ depth,
        SameStruct (SameContent depth) (src.structReader i) ((lb.structBuilder i).reader later))
    (List.pairwise_lt_range.imp (fun before _ here => structBuilder_apart lb before here))
    Valid
    (by
      intro i inside state next valid region copied
      rw [listStructBuilders_inside composite (elemCount ▸ List.mem_range.mp inside)] at copied
      rw [dataWords, ptrCount] at region ⊢
      have writes := copyStructWith_writes pointers valid copied
      have settles := copyStructWith_content pointers content valid dataWords ptrCount
        (congrArg (_ + ·) dataWords) region copied
      exact ⟨writes.valid, writes.effect, settles⟩)
    valid (fun i inside => owned i (List.mem_range.mp inside)) copied
  have behind {cell : Nat × Nat}
      (element
        : ∃ i ∈ List.range src.elemCount,
            (lb.structBuilder i).covers lb.structDataWords lb.structPtrCount cell)
      : Behind lb.seg lb.startWord cell := by
    obtain ⟨i, -, covers⟩ := element
    have covers := (structBuilder_covers_iff lb i cell).mp covers
    exact ⟨covers.1, Nat.le_of_add_right_le covers.2.1⟩
  refine ⟨⟨valid', effect.widen (fun _ _ => behind)⟩, fun i inside later foreign => ?_⟩
  refine settled i (List.mem_range.mpr inside) later (foreign.widen ?_)
  exact fun cell _ both => ⟨both.1, fun element => both.2 (behind element)⟩

/-- The pointers of a list are copied each into its own word. -/
theorem copyPointerElements_content (pointers : WritesPointer copy) (content : CopiesContent copy)
    (lb : ListBuilder) {src : ListPointer} {st after : MessageBuilder} (valid : st.Valid)
    (composite : lb.inlineComposite = false) (elemSize : lb.elemSize = elemSizePointer)
    (elemCount : lb.elemCount = src.elemCount) (default : AnyPointerBuilder)
    (owned : ∀ i < src.elemCount, store.owned st (lb.seg, lb.startWord + i))
    (copied
      : (List.range src.elemCount).foldlM
          (fun st i =>
            copy ((listPointerBuilders lb).getD i default) (src.elementPointer i) st)
          st = some after)
    : Writes (Behind lb.seg lb.startWord) st after
      ∧ ∀ i < src.elemCount,
          store.Settles (Behind lb.seg lb.startWord) st after
            (fun later =>
              later.Valid → later.Addressable → ∀ depth,
                SameContent depth (src.elementPointer i) ((lb.reader later).elementPointer i)) := by
  obtain ⟨⟨valid', effect⟩, settled⟩ := Store.Settles.foldlM
    (fun i cell => cell = (lb.seg, lb.startWord + i))
    (fun i later =>
      later.Valid → later.Addressable → ∀ depth,
        SameContent depth (src.elementPointer i) ((lb.reader later).elementPointer i))
    (List.pairwise_lt_range.imp (fun {i j} before cell here there => by
      have same := congrArg Prod.snd (here.symm.trans there)
      simp only at same
      omega))
    Valid
    (by
      intro i inside state next valid region copied
      rw [listPointerBuilders_inside composite elemSize (elemCount ▸ List.mem_range.mp inside)]
        at copied
      have writes := (pointers _ _ _ _ valid copied).writes valid
      exact ⟨writes.valid, writes.effect, content valid (region _ rfl) copied⟩)
    valid
    (fun i inside cell here => here ▸ owned i (List.mem_range.mp inside)) copied
  have behind {cell : Nat × Nat}
      (element : ∃ i ∈ List.range src.elemCount, cell = (lb.seg, lb.startWord + i))
      : Behind lb.seg lb.startWord cell := by
    obtain ⟨i, -, rfl⟩ := element
    exact ⟨rfl, Nat.le_add_right ..⟩
  refine ⟨⟨valid', effect.widen (fun _ _ => behind)⟩, fun i inside later foreign => ?_⟩
  refine settled i (List.mem_range.mpr inside) later (foreign.widen ?_)
  exact fun cell _ both => ⟨both.1, fun element => both.2 (behind element)⟩

/-- What was written into a new object stays when allocated words change elsewhere. -/
theorem effect_outside_object {st after later : MessageBuilder} (valid : st.Valid)
    {p : AnyPointerBuilder} {words : Nat} {encode : Int → UInt64} {filled : MessageBuilder}
    (grows : ∀ cell, store.owned st cell → store.owned filled cell)
    (effect : store.Effect (fun cell => store.owned st cell ∧ ¬ cell = p.cell) after later)
    {word : Nat} (behind : (initObject p words encode st).1.2 ≤ word)
    : store.Effect
        (fun cell =>
          store.owned filled cell ∧ ¬ Behind (initObject p words encode st).1.1 word cell)
        after later := by
  refine effect.widen (fun cell _ both => ⟨grows _ both.1, fun inside => ?_⟩)
  exact (initObject_places valid p words encode).not_behind both.1
    ⟨inside.1, Nat.le_trans behind inside.2⟩

/-- The copy of a list is found behind its pointer. -/
def ListCopied (dst : AnyPointerBuilder) (src : ListPointer) (later : MessageBuilder) : Prop :=
  later.Valid → later.Addressable → ∀ depth,
    ∃ d, decodeListPtr (dst.reader later) = some d ∧ SameList (SameContent depth) src d

section ListCopies

variable {dst : AnyPointerBuilder} {src : ListPointer} {st after : MessageBuilder}
variable (pointers : WritesPointer copy) (content : CopiesContent copy)
variable (valid : st.Valid) (owned : store.owned st dst.cell) (encodable : src.Encodable)

include pointers content valid owned encodable in
/-- A copied list of structs is read as its source. -/
theorem copyStructList_content (composite : src.inlineComposite = true)
    (copied : copyListWith copy dst src st = some after)
    : store.Settles (fun cell => cell = dst.cell) st after (ListCopied dst src) := by
  obtain ⟨elemSize, smallElems, smallData, smallCount⟩ := encodable.composite composite
  let elemWords := src.structDataWords + src.structPtrCount
  let words := 1 + src.elemCount * elemWords
  let encode (offset : Int) : UInt64 :=
    encodeListPointer offset elemSizeInlineComposite (src.elemCount * elemWords)
  let place := (initObject dst words encode st).1
  let base := (initObject dst words encode st).2
  let tag := encodeStructTag src.elemCount src.structDataWords src.structPtrCount
  let lb : ListBuilder :=
    { seg := place.1, startWord := place.2 + 1, elemSize := elemSizeInlineComposite,
      elemCount := src.elemCount, structDataWords := src.structDataWords,
      structPtrCount := src.structPtrCount, inlineComposite := true }
  have places : Places (fun cell => cell = dst.cell) st (place, base) :=
    initObject_places valid dst words encode
  have room : place.2 + words ≤ base.used place.1 := initObject_owned valid dst words encode
  have tagged := places.writeWordLE tag
  have ownedPlace : store.owned base place := by
    show place.2 < base.used place.1
    omega
  rw [copyListWith, if_pos composite] at copied
  obtain ⟨filled, settled⟩ := copyElements_content pointers content lb tagged.valid rfl rfl rfl
    rfl _
    (by
      intro i inside cell covers
      obtain ⟨same, -, below⟩ := (structBuilder_covers_iff lb i cell).mp covers
      have last : (i + 1) * elemWords ≤ src.elemCount * elemWords :=
        Nat.mul_le_mul_right _ inside
      show cell.2 < base.used cell.1
      rw [same]
      show cell.2 < base.used place.1
      have below : cell.2 < place.2 + 1 + (i + 1) * elemWords := below
      omega)
    copied
  have fill : Writes (Behind place.1 place.2) base after :=
    tagged.trans filled (fun _ _ inside => ⟨inside.1, Nat.le_of_succ_le inside.2⟩)
  intro later effect valid' addressable depth
  obtain ⟨points, inside⟩ := initObject_settles valid owned words encode fill later effect
  have tagWord : later.wordAt place = wordBytes tag := by
    have ownedAfter := filled.effect.grows _ (tagged.effect.grows _ ownedPlace)
    have fresh : ¬ store.owned st place := not_owned_of_used_le places.fresh
    have front : ¬ Behind lb.seg lb.startWord place := fun inside =>
      Nat.not_succ_le_self _ inside.2
    calc
      later.wordAt place = after.wordAt place :=
        effect.kept _ ownedAfter (fun both => fresh both.1)
      _ = (writeWordLE place.1 place.2 tag base).wordAt place :=
        filled.wordAt_eq (tagged.effect.grows _ ownedPlace) front
      _ = wordBytes tag := wordAt_writeWordLE places.writes.valid ownedPlace tag
  obtain ⟨_, rfl, decoded, -⟩ := decodeListPtr_of_pointsTo_tag points valid' addressable inside
    (Nat.le_refl _) tagWord smallElems smallData smallCount
  refine ⟨lb.reader later, decoded, elemSize.symm, rfl, rfl, rfl, composite.symm, ?_, ?_, ?_⟩
  · intro _ i inside
    rw [structReader_reader]
    refine settled i inside later ?_ valid' addressable depth
    exact effect_outside_object valid
      (fun cell owned => tagged.effect.grows _ (places.writes.effect.grows _ owned)) effect
      (Nat.le_succ _)
  · intro pointer
    rw [elemSize] at pointer
    cases pointer
  · intro _
    rw [ListPointer.data, ListPointer.data, elemSize]
    rfl

include pointers content valid owned encodable in
/-- A copied list of pointers is read as its source. -/
theorem copyPointerList_content (composite : src.inlineComposite = false)
    (isPointer : src.elemSize = elemSizePointer)
    (copied : copyListWith copy dst src st = some after)
    : store.Settles (fun cell => cell = dst.cell) st after (ListCopied dst src) := by
  obtain ⟨-, smallCount, noData, noPointers⟩ := encodable.plain composite
  let encode (offset : Int) : UInt64 := encodeListPointer offset elemSizePointer src.elemCount
  let place := (initObject dst src.elemCount encode st).1
  let base := (initObject dst src.elemCount encode st).2
  let lb : ListBuilder :=
    { seg := place.1, startWord := place.2, elemSize := elemSizePointer,
      elemCount := src.elemCount, structDataWords := 0, structPtrCount := 0,
      inlineComposite := false }
  have places : Places (fun cell => cell = dst.cell) st (place, base) :=
    initObject_places valid dst src.elemCount encode
  have room : place.2 + src.elemCount ≤ base.used place.1 :=
    initObject_owned valid dst src.elemCount encode
  rw [copyListWith, if_neg (by simp [composite]), if_pos isPointer] at copied
  obtain ⟨filled, settled⟩ := copyPointerElements_content pointers content lb
    places.writes.valid rfl rfl rfl _
    (by
      intro i inside
      show place.2 + i < base.used place.1
      omega)
    copied
  intro later effect valid' addressable depth
  obtain ⟨points, inside⟩ := initObject_settles valid owned src.elemCount encode filled later effect
  obtain ⟨_, rfl, decoded, -⟩ := decodeListPtr_of_pointsTo points valid' addressable inside
    (by decide) smallCount
  refine ⟨lb.reader later, decoded, isPointer.symm, rfl, noData.symm, noPointers.symm,
    composite.symm, ?_, ?_, ?_⟩
  · rw [composite]
    exact fun other => absurd other (by decide)
  · intro _ i inside
    refine settled i inside later ?_ valid' addressable depth
    exact effect_outside_object valid places.writes.effect.grows effect (Nat.le_refl _)
  · exact fun other => absurd isPointer other

/-- The words of a message that are written to allocated ones, if there are any. -/
theorem copyWords_writes {st after : MessageBuilder} (valid : st.Valid) {seg start words : Nat}
    {msg : Message} {srcSeg srcStart : Nat} (room : start + words ≤ st.used seg)
    (copied
      : (if words > 0 then
            some (writeBytesAt seg (start * 8) (readBytes msg srcSeg (srcStart * 8) (words * 8)) st)
          else some st)
        = some after)
    : Writes (Behind seg start) st after
      ∧ ∀ i < words,
          after.wordAt (seg, start + i) = wordBytes (readWord msg srcSeg (srcStart + i)) := by
  split_ifs at copied with some
  · obtain rfl := Option.some.inj copied
    refine ⟨writeBytesAt_behind valid .., fun i inside => ?_⟩
    have segment := valid.inside seg
    rw [readWord, wordBytes_wordOfBytes]
    apply List.map_congr_left
    intro j inWord
    rw [List.mem_range] at inWord
    have place : (start + i) * 8 + j - start * 8 = i * 8 + j := by omega
    have srcPlace : srcStart * 8 + (i * 8 + j) = (srcStart + i) * 8 + j := by omega
    rw [byteAt_writeBytesAt, length_readBytes, if_pos ⟨⟨rfl, by omega, by omega⟩, by omega⟩, place,
      List.getD_eq_getElem _ _ (by rw [length_readBytes]; omega)]
    simp only [readBytes, List.getElem_map, List.getElem_range, srcPlace]
  · obtain rfl := Option.some.inj copied
    exact ⟨⟨valid, .refl _ _⟩, fun i inside => absurd inside (by omega)⟩

include valid owned encodable in
/-- A copied list of scalars is read as its source. -/
theorem copyPlainList_content (composite : src.inlineComposite = false)
    (notPointer : src.elemSize ≠ elemSizePointer)
    (copied : copyListWith copy dst src st = some after)
    : store.Settles (fun cell => cell = dst.cell) st after (ListCopied dst src) := by
  obtain ⟨plain, smallCount, noData, noPointers⟩ := encodable.plain composite
  let encode (offset : Int) : UInt64 := encodeListPointer offset src.elemSize src.elemCount
  let words := initListWords src.elemSize src.elemCount
  let place := (initObject dst words encode st).1
  let base := (initObject dst words encode st).2
  let lb : ListBuilder :=
    { seg := place.1, startWord := place.2, elemSize := src.elemSize,
      elemCount := src.elemCount, structDataWords := 0, structPtrCount := 0,
      inlineComposite := false }
  have dataWords : words = listDataWords src.elemSize src.elemCount := initListWords_eq plain _
  have places : Places (fun cell => cell = dst.cell) st (place, base) :=
    initObject_places valid dst words encode
  have room : place.2 + words ≤ base.used place.1 := initObject_owned valid dst words encode
  have copied
      : (if words > 0 then
            some (writeBytesAt place.1 (place.2 * 8)
              (readBytes src.msg src.seg (src.startWord * 8) (words * 8)) base)
          else some base)
        = some after := by
    rw [copyListWith, if_neg (by simp [composite]), if_neg notPointer] at copied
    rw [dataWords]
    exact copied
  obtain ⟨filled, wrote⟩ := copyWords_writes places.writes.valid room copied
  intro later effect valid' addressable depth
  obtain ⟨points, inside⟩ := initObject_settles valid owned words encode filled later effect
  obtain ⟨_, rfl, decoded, -⟩ := decodeListPtr_of_pointsTo points valid' addressable
    (dataWords ▸ inside : place.2 + listDataWords src.elemSize src.elemCount ≤ later.used place.1)
    plain smallCount
  refine ⟨lb.reader later, decoded, rfl, rfl, noData.symm, noPointers.symm, composite.symm,
    ?_, ?_, ?_⟩
  · rw [composite]
    exact fun other => absurd other (by decide)
  · exact fun isPointer => absurd isPointer notPointer
  · intro _
    show readBytes (buildMessage later) place.1 (place.2 * 8)
        (listDataWords src.elemSize src.elemCount * 8)
      = readBytes src.msg src.seg (src.startWord * 8)
        (listDataWords src.elemSize src.elemCount * 8)
    rw [← dataWords]
    apply readBytes_of_wordAt valid'
    intro i inside
    have allocated : store.owned base (place.1, place.2 + i) := by
      show place.2 + i < base.used place.1
      omega
    have ownedAfter := filled.effect.grows _ allocated
    have fresh : ¬ store.owned st (place.1, place.2 + i) := by
      have fresh := places.fresh
      apply not_owned_of_used_le
      show st.used place.1 ≤ place.2 + i
      have fresh : st.used place.1 ≤ place.2 := fresh
      omega
    refine ⟨effect.grows _ ownedAfter, ?_⟩
    exact (effect.kept _ ownedAfter (fun both => fresh both.1)).trans (wrote i inside)

end ListCopies

/-- A copied list is read as its source, in each of the three shapes of a list. -/
theorem copyListWith_content (pointers : WritesPointer copy) (content : CopiesContent copy)
    {dst : AnyPointerBuilder} {src : ListPointer} {st after : MessageBuilder} (valid : st.Valid)
    (owned : store.owned st dst.cell) (encodable : src.Encodable)
    (copied : copyListWith copy dst src st = some after)
    : store.Settles (fun cell => cell = dst.cell) st after (ListCopied dst src) := by
  by_cases composite : src.inlineComposite = true
  · exact copyStructList_content pointers content valid owned encodable composite copied
  · rw [Bool.not_eq_true] at composite
    by_cases isPointer : src.elemSize = elemSizePointer
    · exact copyPointerList_content pointers content valid owned encodable composite isPointer
        copied
    · exact copyPlainList_content valid owned encodable composite isPointer copied

-----------------------------------------------------------------------------------------
-- Pointers
-----------------------------------------------------------------------------------------

/-- A struct is copied to a new object of its sizes. -/
theorem copyNewStruct_content (pointers : WritesPointer copy) (content : CopiesContent copy)
    {dst : AnyPointerBuilder} {sr : StructReader} {st after : MessageBuilder} (valid : st.Valid)
    (owned : store.owned st dst.cell) (smallData : sr.dataWords < 2 ^ 16)
    (smallCount : sr.ptrCount < 2 ^ 16)
    (copied
      : copyStructWith copy (initStructPointer dst sr.dataWords sr.ptrCount st).1 sr
          (initStructPointer dst sr.dataWords sr.ptrCount st).2 = some after)
    : store.Settles (fun cell => cell = dst.cell) st after
        (fun later =>
          later.Valid → later.Addressable → ∀ depth,
            SameView (SameContent depth)
              (if sr.dataWords + sr.ptrCount = 0 then .null else .struct sr)
              (dst.reader later).view) := by
  let encode (offset : Int) : UInt64 := encodeStructPointer offset sr.dataWords sr.ptrCount
  let words := sr.dataWords + sr.ptrCount
  let place := (initObject dst words encode st).1
  let base := (initObject dst words encode st).2
  let sb : StructBuilder :=
    { seg := place.1, dataOff := place.2, dataWords := sr.dataWords,
      ptrOff := place.2 + sr.dataWords, ptrCount := sr.ptrCount }
  have places : Places (fun cell => cell = dst.cell) st (place, base) :=
    initObject_places valid dst words encode
  have room : place.2 + words ≤ base.used place.1 := initObject_owned valid dst words encode
  have covered (cell : Nat × Nat) : sb.covers sr.dataWords sr.ptrCount cell
      ↔ cell.1 = place.1 ∧ place.2 ≤ cell.2 ∧ cell.2 < place.2 + words :=
    covers_iff rfl ..
  have copied : copyStructWith copy sb sr base = some after := copied
  have settled := copyStructWith_content pointers content places.writes.valid rfl rfl rfl
    (by
      intro cell covers
      obtain ⟨same, -, below⟩ := (covered cell).mp covers
      show cell.2 < base.used cell.1
      rw [same]
      omega)
    copied
  have filled : Writes (Behind place.1 place.2) base after :=
    (copyStructWith_writes pointers places.writes.valid copied).widen
      (fun cell _ covers => ⟨((covered cell).mp covers).1, ((covered cell).mp covers).2.1⟩)
  intro later effect valid' addressable depth
  obtain ⟨points, inside⟩ := initObject_settles valid owned words encode filled later effect
  have same := settled later
    ((effect_outside_object valid places.writes.effect.grows effect (Nat.le_refl _)).widen
      (fun cell _ both => ⟨both.1, fun covers =>
        both.2 ⟨((covered cell).mp covers).1, ((covered cell).mp covers).2.1⟩⟩))
    valid' addressable depth
  rcases decodeStructPtr_of_pointsTo points valid' addressable inside smallData smallCount with
    ⟨_, rfl, decoded, -⟩ | ⟨noData, noPointers, absent, -, notCapability⟩
  · have decoded : decodeStructPtr (dst.reader later) = some (sb.reader later) := decoded
    by_cases empty : sr.dataWords + sr.ptrCount = 0
    · rw [if_pos empty, view_eq_null_of_empty decoded empty]
      exact .null
    · have words : (sb.reader later).dataWords + (sb.reader later).ptrCount ≠ 0 := empty
      rw [if_neg empty, (decodeStructPtr_eq_some_iff words).mp decoded]
      exact .struct same
  · rw [if_pos (by omega), view_eq_null_of_absent absent notCapability]
    exact .null

/-- Copies have the content of their sources, by induction on the fuel. -/
theorem copyAnyPointer_copiesContent (fuel : Nat) : CopiesContent (copyAnyPointer fuel) := by
  induction fuel with
  | zero => exact fun _ _ copied => nomatch copied
  | succ fuel ih =>
      intro dst src st after valid owned copied later effect valid' addressable depth
      cases depth with
      | zero => trivial
      | succ depth =>
          show SameView (SameContent depth) src.view (dst.reader later).view
          simp only [copyAnyPointer] at copied
          rw [AnyPointer.view]
          split_ifs at copied ⊢ with null capability
          · obtain rfl := Option.some.inj copied
            rw [clearPointer_settles valid owned later effect valid']
            exact .null
          · obtain rfl := Option.some.inj copied
            rw [writeCapability_settles valid owned _ later effect valid']
            exact .capability _
          · cases target : decodeStructPtr src with
            | some sr =>
                rw [target] at copied
                obtain ⟨smallData, smallCount, -⟩ := sizes_of_decodeStructPtr target
                exact copyNewStruct_content (copyAnyPointer_writes fuel) ih valid owned smallData
                  smallCount copied later effect valid' addressable depth
            | none =>
                cases list : decodeListPtr src with
                | some lp =>
                    rw [target, list] at copied
                    obtain ⟨d, decoded, same⟩ := copyListWith_content (copyAnyPointer_writes fuel)
                      ih valid owned (encodable_of_decodeListPtr list) copied later effect valid'
                      addressable depth
                    rw [decodeListPtr_eq_some_iff.mp decoded]
                    exact .list same
                | none =>
                    rw [target, list] at copied
                    obtain rfl := Option.some.inj copied
                    rw [clearPointer_settles valid owned later effect valid']
                    exact .null

/-- Enough fuel copies an acyclic pointer, and more fuel copies it the same. -/
theorem copyAnyPointer_completes {src : AnyPointer} (acyclic : src.Acyclic) {st : MessageBuilder}
    (valid : st.Valid) {dst : AnyPointerBuilder} (owned : store.owned st dst.cell)
    : ∃ after fuel, (∀ more ≥ fuel, copyAnyPointer more dst src st = some after)
        ∧ Writes (fun cell => cell = dst.cell) st after
        ∧ store.Settles (fun cell => cell = dst.cell) st after
            (fun later => later.Valid → later.Addressable →
              ∀ depth, SameContent depth src (dst.reader later)) := by
  obtain ⟨result, fuel, copied⟩ := copyAnyPointer_settles acyclic
  have copied := fun more enough => copied more enough (dst, st)
  have once := copied fuel (Nat.le_refl _)
  exact ⟨result (dst, st), fuel, copied,
    (copyAnyPointer_writes fuel _ _ _ _ valid once).writes valid,
    copyAnyPointer_copiesContent fuel valid owned once⟩

/-- The copy of an acyclic pointer comes to an end, changes no allocated word but its pointer's
and is read as its source is, also when other allocated words are written afterwards.
-/
theorem copyAnyPointer_sameContent {src : AnyPointer} (acyclic : src.Acyclic) {st : MessageBuilder}
    (valid : st.Valid) {dst : AnyPointerBuilder} (owned : store.owned st dst.cell)
    : ∃ after fuel, (∀ more ≥ fuel, copyAnyPointer more dst src st = some after)
        ∧ Writes (fun cell => cell = dst.cell) st after
        ∧ ∀ later : MessageBuilder,
            store.Effect (fun cell => store.owned st cell ∧ cell ≠ dst.cell) after later →
              later.Valid → later.Addressable →
                (∀ depth, SameContent depth src (dst.reader later))
                ∧ readData (dst.reader later) = readData src
                ∧ readText (dst.reader later) = readText src := by
  obtain ⟨after, fuel, copied, writes, lasts⟩ := copyAnyPointer_completes acyclic valid owned
  refine ⟨after, fuel, copied, writes, fun later effect valid' addressable => ?_⟩
  have same := lasts later effect valid' addressable
  exact ⟨same, (same 1).readData, (same 1).readText⟩

/-- A struct with a word of data and a text, in a message of one segment. -/
def greeting : Message where
  segments :=
    [[0, 0, 0, 0, 1, 0, 1, 0, 7, 0, 0, 0, 0, 0, 0, 0,
      1, 0, 0, 0, 0x1a, 0, 0, 0, 0x68, 0x69, 0, 0, 0, 0, 0, 0]]

/-- The struct leads to its text, and the text nowhere. -/
theorem greeting_acyclic : (getRoot greeting).Acyclic := by
  have root : (getRoot greeting).pointers = [{ msg := greeting, seg := 0, word := 2 }] := by decide
  have text : AnyPointer.pointers { msg := greeting, seg := 0, word := 2 } = [] := by decide
  refine .intro _ (fun pointer member => ?_)
  rw [root, List.mem_singleton] at member
  subst member
  refine .intro _ (fun pointer member => ?_)
  rw [text] at member
  exact absurd member List.not_mem_nil

/-- The copy of the greeting takes three words behind the root pointer. -/
theorem usedWords_copy_greeting (fuel : Nat)
    : (copyAnyPointer (fuel + 3) getRootPointer (getRoot greeting) (initMessageBuilder 8)).map
        (fun st => (st.segments.length, st.usedWords))
      = some (1, [4]) := rfl

/-- Witness: the copy of the greeting at the root of a new message is read as it. -/
theorem copyAnyPointer_sameContent_greeting
    : ∃ after fuel,
        (∀ more ≥ fuel, copyAnyPointer more getRootPointer (getRoot greeting) (initMessageBuilder 8)
          = some after)
        ∧ ∀ depth, SameContent depth (getRoot greeting) (getRootPointer.reader after) := by
  obtain ⟨after, fuel, copied, wrote, lasts⟩ :=
    copyAnyPointer_sameContent greeting_acyclic (initMessageBuilder_valid 8) root_owned
  have used := usedWords_copy_greeting fuel
  rw [copied (fuel + 3) (Nat.le_add_right ..), Option.map_some] at used
  obtain ⟨segments, words⟩ := Prod.mk.inj (Option.some.inj used)
  have addressable : after.Addressable := by
    refine addressable_of_usedWords ?_ ?_
    · rw [segments]
      decide
    · rw [words]
      decide
  exact ⟨after, fuel, copied, (lasts after (.refl _ _) wrote.valid addressable).1⟩

end Capnp
