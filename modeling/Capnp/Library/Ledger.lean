import Mathlib.Data.List.Range
import Mathlib.Data.List.Perm.Basic

/-! Ledgers of numbered entries: every number issued so far stands in exactly one place.
The places are one list, so that moving an entry between them is a permutation.
-/

/-- The entries are the numbers below `issued`, once each. -/
def Ledger (issued : Nat) (entries : List Nat) : Prop :=
  entries.Perm (List.range issued)

namespace Ledger

variable {issued number : Nat} {entries others : List Nat}

/-- Nothing is issued at first. -/
theorem start : Ledger 0 [] := .nil

/-- Issuing a number enters it. -/
theorem issue (ledger : Ledger issued entries) : Ledger (issued + 1) (issued :: entries) := by
  rw [Ledger, List.range_succ]
  exact (ledger.cons issued).trans (List.perm_append_singleton issued _).symm

/-- Entries may move between places. -/
theorem move (ledger : Ledger issued entries) (moved : others.Perm entries)
    : Ledger issued others :=
  moved.trans ledger

/-- No number is entered twice. -/
theorem nodup (ledger : Ledger issued entries) : entries.Nodup :=
  ledger.nodup_iff.mpr List.nodup_range

/-- All issued numbers are entered. -/
theorem mem_iff (ledger : Ledger issued entries) : number ∈ entries ↔ number < issued :=
  (List.Perm.mem_iff ledger).trans List.mem_range

end Ledger
