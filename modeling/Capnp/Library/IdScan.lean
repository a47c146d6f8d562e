import Mathlib.Data.List.Basic
import Mathlib.Data.List.Perm.Subperm
import Mathlib.Data.UInt

/-! A 32-bit counter that is advanced until it stands at an id that is not in use. The counter
wraps around; as long as some id is unused the scan ends.
-/

namespace IdScan

variable {used : UInt32 → Prop} [DecidablePred used] {fuel : Nat} {next id counter : UInt32}

/-- The id found and the counter behind it. A scan of ids that are all used has no end; `fuel`
bounds it.
-/
def scan (used : UInt32 → Prop) [DecidablePred used] : Nat → UInt32 → Option (UInt32 × UInt32)
  | 0, _ => none
  | fuel + 1, next => if used next then scan used fuel (next + 1) else some (next, next + 1)

/-- A found id is unused, and the counter then stands right after it. -/
theorem scan_spec (found : scan used fuel next = some (id, counter))
    : ¬ used id ∧ counter = id + 1 := by
  induction fuel generalizing next with
  | zero => simp [scan] at found
  | succ fuel ih =>
      by_cases taken : used next
      · exact ih (by simpa only [scan, taken, if_true] using found)
      · simp only [scan, taken, if_false, Option.some.injEq, Prod.mk.injEq] at found
        obtain ⟨rfl, rfl⟩ := found
        exact ⟨taken, rfl⟩

/-- A scan that finds nothing has seen only used ids, by induction on its length. -/
theorem used_of_scan_none (exhausted : scan used fuel next = none)
    : ∀ offset < fuel, used (next + UInt32.ofNat offset) := by
  induction fuel generalizing next with
  | zero => simp
  | succ fuel ih =>
      have taken : used next := by
        by_contra unused
        simp [scan, unused] at exhausted
      have later := ih (by simpa only [scan, taken, if_true] using exhausted)
      intro offset below
      cases offset with
      | zero => simpa using taken
      | succ offset =>
          have shifted := later offset (by omega)
          rwa [UInt32.add_assoc, UInt32.add_comm 1, ← UInt32.ofNat_one, ← UInt32.ofNat_add]
            at shifted

/-- The scan length is enough where the used ids are listed and not all ids.
Witness: one more distinct id than the list has entries cannot all be in it.
-/
theorem scan_isSome {listed : List UInt32} (next : UInt32) (covers : ∀ id, used id → id ∈ listed)
    (room : listed.length < 2 ^ 32)
    : (scan used (listed.length + 1) next).isSome := by
  by_contra failed
  have taken := used_of_scan_none (Option.not_isSome_iff_eq_none.mp failed)
  let scanned := (List.range (listed.length + 1)).map (fun i => next + UInt32.ofNat i)
  have distinct : scanned.Nodup := by
    refine List.Nodup.map_on (fun i hi j hj same => ?_) List.nodup_range
    have offsets := congrArg UInt32.toNat (add_left_cancel same)
    rw [List.mem_range] at hi hj
    have iFits : i < UInt32.size := (by omega : i < 2 ^ 32)
    have jFits : j < UInt32.size := (by omega : j < 2 ^ 32)
    rwa [UInt32.toNat_ofNat_of_lt' iFits, UInt32.toNat_ofNat_of_lt' jFits] at offsets
  have included : scanned ⊆ listed := by
    intro id member
    obtain ⟨offset, below, rfl⟩ := List.mem_map.mp member
    exact covers _ (taken offset (List.mem_range.mp below))
  have bound := distinct.length_le_of_subset included
  simp only [scanned, List.length_map, List.length_range] at bound
  omega

end IdScan
