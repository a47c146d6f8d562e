import Mathlib.Data.List.Basic

/-! Fields of a memory of bits. A field is as many bits as its value has, from some bit on; it
holds what was written to it last, if nothing was written over it since.
-/

namespace BitFields

/-- Writes a value from the bit `base` on. -/
def update (bits : Nat → Bool) (base : Nat) {width : Nat} (value : BitVec width) : Nat → Bool :=
  fun k => if base ≤ k ∧ k < base + width then value.getLsbD (k - base) else bits k

/-- The value that the bits from `base` on make up. -/
def slice (bits : Nat → Bool) (base width : Nat) : BitVec width :=
  (BitVec.ofBoolListLE ((List.range width).map (fun i => bits (base + i)))).setWidth width

/-- Two runs of bits have none in common. -/
def Apart (base width base' width' : Nat) : Prop :=
  base + width ≤ base' ∨ base' + width' ≤ base

variable {bits bits' : Nat → Bool} {base width base' width' : Nat}

/-- A slice by its bits. -/
theorem getLsbD_slice (bits : Nat → Bool) (base : Nat) {i : Nat} (inside : i < width)
    : (slice bits base width).getLsbD i = bits (base + i) := by
  rw [slice, BitVec.getLsbD_setWidth, BitVec.getLsbD_ofBoolListLE, List.getD_eq_getElem?_getD,
    List.getElem?_map, List.getElem?_range inside, decide_eq_true inside]
  rfl

/-- A value is the one of some bits when it has them. -/
theorem eq_slice_iff {value : BitVec width}
    : value = slice bits base width ↔ ∀ i < width, value.getLsbD i = bits (base + i) := by
  constructor
  · intro same i inside
    rw [same, getLsbD_slice bits base inside]
  · intro same
    apply BitVec.eq_of_getLsbD_eq
    intro i inside
    rw [same i inside, getLsbD_slice bits base inside]

/-- Slices of the same bits. -/
theorem slice_congr (same : ∀ i < width, bits (base + i) = bits' (base' + i))
    : slice bits base width = slice bits' base' width := by
  rw [eq_slice_iff]
  intro i inside
  rw [getLsbD_slice bits base inside, same i inside]

/-- The bits that are updated. -/
theorem update_inside (bits : Nat → Bool) (base : Nat) (value : BitVec width) {i : Nat}
    (inside : i < width) : update bits base value (base + i) = value.getLsbD i := by
  rw [update, if_pos ⟨Nat.le_add_right .., Nat.add_lt_add_left inside _⟩, Nat.add_sub_cancel_left]

/-- A slice that is updated is the value. -/
theorem slice_update (bits : Nat → Bool) (base : Nat) (value : BitVec width)
    : slice (update bits base value) base width = value :=
  (eq_slice_iff.mpr (fun _ inside => (update_inside bits base value inside).symm)).symm

/-- A slice apart from it stays. -/
theorem slice_update_of_apart (value : BitVec width') (apart : Apart base width base' width')
    : slice (update bits base' value) base width = slice bits base width := by
  apply slice_congr
  intro i inside
  rw [update, if_neg]
  unfold Apart at apart
  omega

/-- One write: a value and the bit from which on it is written. -/
structure Write where
  base : Nat
  width : Nat
  value : BitVec width

def run (writes : List Write) (bits : Nat → Bool) : Nat → Bool :=
  writes.foldl (fun bits write => update bits write.base write.value) bits

/-- It stays in a run of updates apart from it, by induction on the run. -/
theorem slice_run_of_apart {writes : List Write}
    (apart : ∀ write ∈ writes, Apart base width write.base write.width)
    : slice (run writes bits) base width = slice bits base width := by
  induction writes generalizing bits with
  | nil => rfl
  | cons write rest ih =>
      have remaining
          : slice (run rest (update bits write.base write.value)) base width
            = slice (update bits write.base write.value) base width :=
        ih (fun other member => apart other (List.mem_cons_of_mem _ member))
      exact remaining.trans (slice_update_of_apart _ (apart write List.mem_cons_self))

/-- What was written last is read, if later writes are apart from it. -/
theorem slice_run_last (writes : List Write) (write : Write) {later : List Write}
    (apart : ∀ other ∈ later, Apart write.base write.width other.base other.width)
    : slice (run (writes ++ write :: later) bits) write.base write.width = write.value := by
  have split
      : run (writes ++ write :: later) bits
        = run later (update (run writes bits) write.base write.value) := by
    rw [run, List.foldl_append, List.foldl_cons]
    rfl
  rw [split, slice_run_of_apart apart, slice_update]

end BitFields
