import Capnp.Runtime.FieldBits

/-! Runs of setters on one struct. The data section is a memory of bits: each setter updates
the bits of its field, each getter takes a slice of them, and a field has the value it was
set to last, unless a setter of an overlapping field ran since.
-/

namespace Capnp

open BitFields MessageBuilder

/-- A call of a setter: the scalar, the offset, the mask of a default and the value. -/
structure FieldWrite where
  scalar : Scalar
  offset : Nat
  mask : Option (BitVec scalar.width)
  value : scalar.Value

namespace FieldWrite

def apply (b : StructBuilder) (st : MessageBuilder) (write : FieldWrite) : MessageBuilder :=
  write.scalar.set b write.offset write.mask write.value st

/-- The field lies in a data section of so many words. -/
def Fits (dataWords : Nat) (write : FieldWrite) : Prop :=
  write.scalar.bitOffset write.offset + write.scalar.width ≤ dataWords * 64

/-- A field needs a word of data. -/
theorem Fits.words_pos {dataWords : Nat} {write : FieldWrite} (fits : write.Fits dataWords)
    : 0 < dataWords := by
  have wide : 0 < write.scalar.width := by cases write.scalar <;> decide
  unfold Fits at fits
  omega

/-- The update of the data section that the setter makes. -/
def bits (write : FieldWrite) : Write where
  base := write.scalar.bitOffset write.offset
  width := write.scalar.width
  value := write.scalar.toBits write.value ^^^ write.mask.getD 0#(write.scalar.width)

end FieldWrite

/-- The words of the data section. -/
def StructBuilder.DataCell (b : StructBuilder) (cell : Nat × Nat) : Prop :=
  cell.1 = b.seg ∧ b.dataOff ≤ cell.2 ∧ cell.2 < b.dataOff + b.dataWords

/-- The bits of the data section. -/
def StructBuilder.dataBits (b : StructBuilder) (st : MessageBuilder) : Nat → Bool :=
  fun k => st.bitAt b.seg (b.dataOff * 64 + k)

variable {b : StructBuilder} {st : MessageBuilder}

/-- A setter writes words of the data section alone. -/
theorem FieldWrite.writes (valid : st.Valid) {write : FieldWrite} (fits : write.Fits b.dataWords)
    : Writes b.DataCell st (write.apply b st) := by
  have fits : write.scalar.bitOffset write.offset + write.scalar.width ≤ b.dataWords * 64 := fits
  rw [FieldWrite.apply, Scalar.set_eq]
  obtain ⟨src, length, wrote⟩ := Scalar.exists_write_eq write.scalar b write.offset
    (write.scalar.toBits write.value ^^^ write.mask.getD 0#(write.scalar.width)) st
  have bytes : src.length = (write.scalar.width + 7) / 8 := length
  rw [wrote]
  apply (modifySegment_writes valid b.seg _ src.length _).widen
  rintro cell - ⟨same, low, high⟩
  exact ⟨same, by omega, by omega⟩

/-- A setter updates the bits of the data section. -/
theorem FieldWrite.dataBits_apply (valid : st.Valid)
    (allocated : b.dataOff + b.dataWords ≤ st.used b.seg) {write : FieldWrite}
    (fits : write.Fits b.dataWords)
    : b.dataBits (write.apply b st) = update (b.dataBits st) write.bits.base write.bits.value := by
  have fits : write.scalar.bitOffset write.offset + write.scalar.width ≤ b.dataWords * 64 := fits
  have owned
      : b.dataOff * 64 + write.scalar.bitOffset write.offset + write.scalar.width
        ≤ st.used b.seg * 64 := by
    omega
  let value : BitVec write.scalar.width :=
    write.scalar.toBits write.value ^^^ write.mask.getD 0#(write.scalar.width)
  have wrote := (Scalar.bitAt_write write.scalar valid owned value).1
  funext k
  rw [StructBuilder.dataBits, FieldWrite.apply, Scalar.set_eq, wrote]
  show update (st.bitAt b.seg) (b.dataOff * 64 + write.scalar.bitOffset write.offset) value _
    = update (b.dataBits st) (write.scalar.bitOffset write.offset) value k
  rw [update, update]
  have shifted
      : b.dataOff * 64 + k - (b.dataOff * 64 + write.scalar.bitOffset write.offset)
        = k - write.scalar.bitOffset write.offset := by
    omega
  rw [shifted]
  exact if_congr (by omega) rfl rfl

/-- A run of setters, by induction on the run: each updates what the ones before it left. -/
theorem fieldWrites_refine {writes : List FieldWrite} (valid : st.Valid)
    (allocated : b.dataOff + b.dataWords ≤ st.used b.seg)
    (fits : ∀ write ∈ writes, write.Fits b.dataWords)
    : Writes b.DataCell st (writes.foldl (FieldWrite.apply b) st)
      ∧ b.dataBits (writes.foldl (FieldWrite.apply b) st)
        = run (writes.map FieldWrite.bits) (b.dataBits st) := by
  induction writes generalizing st with
  | nil => exact ⟨⟨valid, .refl _ _⟩, rfl⟩
  | cons write rest ih =>
      have first := FieldWrite.writes valid (fits write List.mem_cons_self)
      have bits := FieldWrite.dataBits_apply valid allocated (fits write List.mem_cons_self)
      obtain ⟨remaining, refines⟩ := ih first.valid (used_le_of_effect first.effect allocated)
        (fun other member => fits other (List.mem_cons_of_mem _ member))
      refine ⟨first.trans remaining (fun _ _ => id), ?_⟩
      rw [List.foldl_cons, refines, bits]
      rfl

/-- A getter of a field of the data section takes a slice of its bits. -/
theorem Scalar.get_reader (s : Scalar) (valid : st.Valid)
    (allocated : b.dataOff + b.dataWords ≤ st.used b.seg) {offset : Nat}
    (fits : s.bitOffset offset + s.width ≤ b.dataWords * 64) (mask : Option (BitVec s.width))
    : s.get (b.reader st) offset mask
      = s.ofBits (slice (b.dataBits st) (s.bitOffset offset) s.width ^^^ mask.getD 0#s.width) := by
  rw [Scalar.get_eq, Scalar.read_eq_slice]
  have same
      : slice (getBit (b.reader st).msg (b.reader st).seg)
          ((b.reader st).dataOff * 64 + s.bitOffset offset) s.width
        = slice (b.dataBits st) (s.bitOffset offset) s.width := by
    apply slice_congr
    intro i inside
    show getBit (buildMessage st) b.seg (b.dataOff * 64 + s.bitOffset offset + i) = _
    rw [getBit_buildMessage valid (by omega), StructBuilder.dataBits, Nat.add_assoc]
  rw [same]

/-- What a step that leaves the data section alone leaves of its bits. -/
theorem dataBits_of_effect {later : MessageBuilder} {written : Nat × Nat → Prop}
    (allocated : b.dataOff + b.dataWords ≤ st.used b.seg)
    (effect : store.Effect written st later) (outside : ∀ cell, written cell → ¬ b.DataCell cell)
    {k : Nat} (inside : k < b.dataWords * 64)
    : b.dataBits later k = b.dataBits st k := by
  have word : (b.dataOff * 64 + k) / 64 = b.dataOff + k / 64 := by omega
  have inWords : k / 64 < b.dataWords := by omega
  have owned : store.owned st (b.seg, (b.dataOff * 64 + k) / 64) := by
    show (b.dataOff * 64 + k) / 64 < st.used b.seg
    omega
  refine bitAt_of_wordAt (effect.kept _ owned (fun member => outside _ member ?_))
  rw [word]
  exact ⟨rfl, Nat.le_add_right .., Nat.add_lt_add_left inWords _⟩

/-- The getters still read what a run of setters left after operations that leave the data section
alone.
-/
theorem Scalar.get_of_fieldWrites (s : Scalar) {writes : List FieldWrite} (valid : st.Valid)
    (allocated : b.dataOff + b.dataWords ≤ st.used b.seg)
    (fits : ∀ write ∈ writes, write.Fits b.dataWords) {later : MessageBuilder}
    {written : Nat × Nat → Prop} (valid' : later.Valid)
    (effect : store.Effect written (writes.foldl (FieldWrite.apply b) st) later)
    (outside : ∀ cell, written cell → ¬ b.DataCell cell) {offset : Nat}
    (inside : s.bitOffset offset + s.width ≤ b.dataWords * 64) (mask : Option (BitVec s.width))
    : s.get (b.reader later) offset mask
      = s.ofBits
          (slice (run (writes.map FieldWrite.bits) (b.dataBits st)) (s.bitOffset offset) s.width
            ^^^ mask.getD 0#s.width) := by
  obtain ⟨wrote, refines⟩ := fieldWrites_refine valid allocated fits
  have allocated' := used_le_of_effect wrote.effect allocated
  rw [Scalar.get_reader s valid' (used_le_of_effect effect allocated') inside]
  have same
      : slice (b.dataBits later) (s.bitOffset offset) s.width
        = slice (run (writes.map FieldWrite.bits) (b.dataBits st)) (s.bitOffset offset)
            s.width := by
    apply slice_congr
    intro i inField
    rw [dataBits_of_effect allocated' effect outside (by omega), refines]
  rw [same]

/-- Every getter of a struct reads, after any run of setters on it and any operations that leave
its data section alone, the slice of the bits that the run left; a field that was set reads as
it was set last, with the mask it was set with, when no overlapping field was set since.
-/
theorem fieldRuns_refine {writes : List FieldWrite} (valid : st.Valid)
    (allocated : b.dataOff + b.dataWords ≤ st.used b.seg)
    (fits : ∀ write ∈ writes, write.Fits b.dataWords)
    : Writes b.DataCell st (writes.foldl (FieldWrite.apply b) st)
      ∧ ∀ (later : MessageBuilder) (written : Nat × Nat → Prop), later.Valid →
          store.Effect written (writes.foldl (FieldWrite.apply b) st) later →
            (∀ cell, written cell → ¬ b.DataCell cell) →
              (∀ (s : Scalar) (offset : Nat) (mask : Option (BitVec s.width)),
                s.bitOffset offset + s.width ≤ b.dataWords * 64 →
                  s.get (b.reader later) offset mask
                    = s.ofBits
                        (slice (run (writes.map FieldWrite.bits) (b.dataBits st))
                          (s.bitOffset offset) s.width ^^^ mask.getD 0#s.width))
              ∧ ∀ (earlier : List FieldWrite) (write : FieldWrite) (since : List FieldWrite),
                  writes = earlier ++ write :: since →
                    (∀ other ∈ since,
                      Apart write.bits.base write.bits.width other.bits.base other.bits.width) →
                      write.scalar.get (b.reader later) write.offset write.mask
                        = write.scalar.ofBits (write.scalar.toBits write.value) := by
  refine ⟨(fieldWrites_refine valid allocated fits).1, ?_⟩
  intro later written valid' effect outside
  have getters (s : Scalar) (offset : Nat) (mask : Option (BitVec s.width))
      (inside : s.bitOffset offset + s.width ≤ b.dataWords * 64) :=
    s.get_of_fieldWrites valid allocated fits valid' effect outside inside mask
  refine ⟨getters, ?_⟩
  rintro earlier write since rfl apart
  have member : write ∈ earlier ++ write :: since :=
    List.mem_append.mpr (.inr List.mem_cons_self)
  have last
      : slice (run ((earlier ++ write :: since).map FieldWrite.bits) (b.dataBits st))
          (write.scalar.bitOffset write.offset) write.scalar.width
        = write.scalar.toBits write.value ^^^ write.mask.getD 0#(write.scalar.width) := by
    rw [List.map_append, List.map_cons]
    apply slice_run_last (List.map FieldWrite.bits earlier) write.bits
    intro other member
    obtain ⟨field, inRun, rfl⟩ := List.mem_map.mp member
    exact apart field inRun
  rw [getters write.scalar write.offset write.mask (fits write member), last, BitVec.xor_assoc,
    BitVec.xor_self, BitVec.xor_zero]

/-- A number, and a flag behind it with the mask of a set default. -/
def numberAndFlag : List FieldWrite :=
  [{ scalar := .uint16, offset := 0, mask := none, value := (7 : UInt16) },
    { scalar := .bool, offset := 20, mask := some 1#1, value := true }]

/-- Both lie in one word. -/
theorem numberAndFlag_fits : ∀ write ∈ numberAndFlag, write.Fits 1 := by
  intro write member
  rcases List.mem_pair.mp member with rfl | rfl
  · exact (by decide : 0 + 16 ≤ 64)
  · exact (by decide : 20 + 1 ≤ 64)

/-- The root pointer is allocated. -/
theorem root_owned : store.owned (initMessageBuilder 8) getRootPointer.cell :=
  Nat.zero_lt_one

def oneWord : StructBuilder × MessageBuilder :=
  initStructPointer getRootPointer 1 0 (initMessageBuilder 8)

/-- The struct's builder is valid. -/
theorem oneWord_valid : oneWord.2.Valid :=
  initStructPointer_valid (initMessageBuilder_valid 8) getRootPointer 1 0

/-- Its word is allocated. -/
theorem oneWord_allocated
    : oneWord.1.dataOff + oneWord.1.dataWords ≤ oneWord.2.used oneWord.1.seg := by
  decide

/-- Witness: the number reads as it was set. -/
theorem fieldRuns_refine_numberAndFlag
    : Writes oneWord.1.DataCell oneWord.2
        (numberAndFlag.foldl (FieldWrite.apply oneWord.1) oneWord.2)
      ∧ getUInt16 (oneWord.1.reader (numberAndFlag.foldl (FieldWrite.apply oneWord.1) oneWord.2)) 0
        = 7 := by
  obtain ⟨wrote, reads⟩ := fieldRuns_refine oneWord_valid oneWord_allocated numberAndFlag_fits
  obtain ⟨-, last⟩ := reads _ (fun _ => False) wrote.valid (.refl _ _) (fun _ never => never.elim)
  refine ⟨wrote, last [] _ _ rfl (fun other member => ?_)⟩
  rw [List.mem_singleton.mp member]
  exact .inl (by decide)

end Capnp
