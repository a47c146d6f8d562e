import Mathlib.Data.List.Basic

/-! Recursions cut off by a fuel. Where the calls of a run lead to finitely many keys below
its own, and no chain of them is infinite, enough fuel gives the result of the recursion.
-/

/-- A bound for each key of a list gives one for all of them. -/
theorem exists_fuel_forall {κ : Type*} {holds : Nat → κ → Prop} {keys : List κ}
    (each : ∀ key ∈ keys, ∃ fuel, ∀ more ≥ fuel, holds more key)
    : ∃ fuel, ∀ key ∈ keys, ∀ more ≥ fuel, holds more key := by
  induction keys with
  | nil => exact ⟨0, fun key member => absurd member List.not_mem_nil⟩
  | cons first rest ih =>
      obtain ⟨one, first⟩ := each first List.mem_cons_self
      obtain ⟨others, rest⟩ := ih (fun key member => each key (List.mem_cons_of_mem _ member))
      refine ⟨max one others, fun key member more enough => ?_⟩
      rcases List.mem_cons.mp member with same | member
      · rw [same]
        exact first more (Nat.le_trans (Nat.le_max_left ..) enough)
      · exact rest key member more (Nat.le_trans (Nat.le_max_right ..) enough)

/-- `run` with one more fuel depends on `run` at the keys of `calls` alone, and gives a result
where those do.
-/
structure Unfolds {κ α β : Type*} (run : Nat → κ → α → Option β) (calls : κ → List κ) : Prop where
  congr
    : ∀ {fuel more key}, (∀ call ∈ calls key, run fuel call = run more call) →
        run (fuel + 1) key = run (more + 1) key
  total
    : ∀ {fuel key}, (∀ call ∈ calls key, ∀ input, (run fuel call input).isSome) →
        ∀ input, (run (fuel + 1) key input).isSome

namespace Unfolds

variable {κ α β : Type*} {run : Nat → κ → α → Option β} {calls : κ → List κ}

/-- With so much fuel the run has its result, and more does not change it. -/
def Settled (run : Nat → κ → α → Option β) (fuel : Nat) (key : κ) : Prop :=
  (∀ more ≥ fuel, run more key = run fuel key) ∧ ∀ input, (run fuel key input).isSome

/-- More fuel changes nothing. -/
theorem Settled.of_le {fuel more : Nat} {key : κ} (settled : Settled run fuel key)
    (enough : more ≥ fuel) : Settled run more key := by
  have same := settled.1 more enough
  refine ⟨fun most enough' => ?_, fun input => ?_⟩
  · rw [same, settled.1 most (Nat.le_trans enough enough')]
  · rw [same]
    exact settled.2 input

/-- A call is settled when the calls that it makes are, with one more fuel. -/
theorem settled_succ (unfolds : Unfolds run calls) {fuel : Nat} {key : κ}
    (below : ∀ call ∈ calls key, Settled run fuel call) : Settled run (fuel + 1) key := by
  refine ⟨fun more enough => ?_, unfolds.total (fun call member => (below call member).2)⟩
  obtain ⟨more, rfl⟩ : ∃ less, more = less + 1 := ⟨more - 1, by omega⟩
  exact unfolds.congr (fun call member => (below call member).1 more (by omega))

/-- A key below which no chain of calls is infinite, by induction on its accessibility. -/
theorem exists_settled (unfolds : Unfolds run calls) {key : κ}
    (accessible : Acc (fun call key => call ∈ calls key) key)
    : ∃ fuel, ∀ more ≥ fuel, Settled run more key := by
  induction accessible with
  | intro key _ ih =>
      obtain ⟨fuel, below⟩ := exists_fuel_forall ih
      refine ⟨fuel + 1, fun more enough => ?_⟩
      have settled :=
        unfolds.settled_succ (fun call member => below call member fuel (Nat.le_refl _))
      exact settled.of_le enough

end Unfolds

-----------------------------------------------------------------------------------------
-- Results
-----------------------------------------------------------------------------------------

/-- With enough fuel the run gives every input its result, which more fuel does not change. -/
def Settles {α β : Type*} (run : Nat → α → Option β) : Prop :=
  ∃ result : α → β, ∃ fuel, ∀ more ≥ fuel, ∀ input, run more input = some (result input)

namespace Settles

variable {α β γ : Type*} {run : Nat → α → Option β}

/-- What needs no fuel ends. -/
theorem pure (f : α → β) : Settles (fun _ input => some (f input)) :=
  ⟨f, 0, fun _ _ _ => rfl⟩

/-- The input may be prepared first, and the result be processed. -/
theorem comap (settles : Settles run) (f : γ → α)
    : Settles (fun fuel input => run fuel (f input)) := by
  obtain ⟨result, fuel, ran⟩ := settles
  exact ⟨fun input => result (f input), fuel, fun more enough input => ran more enough (f input)⟩

/-- A result that ends may be mapped. -/
theorem map (settles : Settles run) (f : β → γ)
    : Settles (fun fuel input => (run fuel input).map f) := by
  obtain ⟨result, fuel, ran⟩ := settles
  refine ⟨fun input => f (result input), fuel, fun more enough input => ?_⟩
  exact congrArg (Option.map f) (ran more enough input)

/-- Two runs that end, one after the other. -/
theorem bind (settles : Settles run) {next : Nat → β → Option γ} (others : Settles next)
    : Settles (fun fuel input => (run fuel input).bind (next fuel)) := by
  obtain ⟨result, fuel, ran⟩ := settles
  obtain ⟨last, more, rest⟩ := others
  refine ⟨fun input => last (result input), max fuel more, fun most enough input => ?_⟩
  have first := ran most (Nat.le_trans (Nat.le_max_left ..) enough) input
  have second := rest most (Nat.le_trans (Nat.le_max_right ..) enough) (result input)
  exact Option.bind_eq_some_iff.mpr ⟨result input, first, second⟩

/-- Finitely many runs have a fuel that is enough for each. -/
theorem of_forall {size : Nat} {step : Fin size → Nat → α → Option β}
    (each : ∀ i, Settles (step i))
    : ∃ result : Fin size → α → β, ∃ fuel, ∀ more ≥ fuel, ∀ i input,
        step i more input = some (result i input) := by
  choose result fuels ran using each
  have each (i : Fin size) (_ : i ∈ List.finRange size)
      : ∃ fuel, ∀ more ≥ fuel, ∀ input, step i more input = some (result i input) :=
    ⟨fuels i, ran i⟩
  obtain ⟨fuel, enough⟩ := exists_fuel_forall each
  exact ⟨result, fuel, fun more large i => enough i (List.mem_finRange i) more large⟩

end Settles
