import Capnp.Library.Table

/-! Reference counts kept beside a table of holders.
Each holder names one owner; the counts are balanced when every owner's count is the
number of its holders, and an owner without holders has no count at all.
-/

namespace RefCount

variable {κ ω : Type*} [DecidableEq κ] [DecidableEq ω]

/-- Every owner's count is its number of holders, and is absent when that is zero. -/
def Balanced (ownerOf : Table κ ω) (counts : Table ω Nat) : Prop :=
  ∀ owner,
    counts.lookup owner
    = if Table.countValue ownerOf owner = 0 then none
      else some (Table.countValue ownerOf owner)

omit [DecidableEq κ] in
/-- Without holders and counts the books are balanced. -/
theorem balanced_empty : Balanced (∅ : Table κ ω) (∅ : Table ω Nat) := by
  intro owner
  simp

variable {ownerOf : Table κ ω} {counts : Table ω Nat}

/-- An owner has a holder exactly when its holder count is positive. -/
theorem countValue_pos_iff {owner : ω}
    : 0 < Table.countValue ownerOf owner ↔ ∃ holder, ownerOf.lookup holder = some owner := by
  rw [Table.countValue, List.count_pos_iff]
  constructor
  · intro member
    obtain ⟨⟨holder, found⟩, stored, same⟩ := List.mem_map.mp member
    subst same
    exact ⟨holder, AList.mem_lookup_iff.mpr stored⟩
  · rintro ⟨holder, found⟩
    exact List.mem_map.mpr ⟨_, AList.mem_lookup_iff.mp found, rfl⟩

/-- A holder's owner carries its exact positive count. -/
theorem Balanced.count_of_holder (balanced : Balanced ownerOf counts) {holder : κ}
    {owner : ω} (found : ownerOf.lookup holder = some owner)
    : 0 < Table.countValue ownerOf owner
      ∧ counts.lookup owner = some (Table.countValue ownerOf owner) := by
  have positive : 0 < Table.countValue ownerOf owner := countValue_pos_iff.mpr ⟨holder, found⟩
  refine ⟨positive, ?_⟩
  rw [balanced owner, if_neg (Nat.pos_iff_ne_zero.mp positive)]

/-- One more holder of an owner, with the count raised by one, stays balanced.
A new owner is the case of count zero.
-/
theorem Balanced.share (balanced : Balanced ownerOf counts) {holder : κ}
    (fresh : holder ∉ ownerOf) (owner : ω)
    : Balanced (ownerOf.insert holder owner)
        (counts.insert owner (Table.countValue ownerOf owner + 1)) := by
  intro other
  rw [Table.countValue_insert_fresh fresh]
  rcases eq_or_ne owner other with rfl | same
  · simp [AList.lookup_insert]
  · rw [AList.lookup_insert_ne (Ne.symm same), balanced other]
    simp [same]

/-- Dropping one of several holders and lowering the count by one stays balanced. -/
theorem Balanced.release (balanced : Balanced ownerOf counts) {holder : κ} {owner : ω}
    (found : ownerOf.lookup holder = some owner)
    (shared : 1 < Table.countValue ownerOf owner)
    : Balanced (ownerOf.erase holder)
        (counts.insert owner (Table.countValue ownerOf owner - 1)) := by
  intro other
  have removed := Table.countValue_erase found other
  rcases eq_or_ne owner other with rfl | same
  · simp only [if_true] at removed
    rw [AList.lookup_insert, if_neg (by omega)]
    exact congrArg some (by omega)
  · rw [AList.lookup_insert_ne (Ne.symm same), balanced other]
    simp only [same, if_false, Nat.add_zero] at removed
    rw [removed]

/-- Dropping the last holder together with its owner's count stays balanced. -/
theorem Balanced.release_last (balanced : Balanced ownerOf counts) {holder : κ}
    {owner : ω} (found : ownerOf.lookup holder = some owner)
    (last : Table.countValue ownerOf owner = 1)
    : Balanced (ownerOf.erase holder) (counts.erase owner) := by
  intro other
  have removed := Table.countValue_erase found other
  rcases eq_or_ne owner other with rfl | same
  · simp only [if_true] at removed
    rw [AList.lookup_erase, if_pos (by omega)]
  · rw [AList.lookup_erase_ne (Ne.symm same), balanced other]
    simp only [same, if_false, Nat.add_zero] at removed
    rw [removed]

end RefCount
