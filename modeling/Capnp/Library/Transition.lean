import Mathlib.Data.List.Basic

/-! Labelled transition systems: runs, reachable states and the induction rules for them.
Guarding a system with a condition on each step gives the runs whose steps all meet it.
-/

namespace Transition

/-- An initial-state predicate and a labelled step relation. -/
structure System (σ α : Type*) where
  initial : σ → Prop
  step : σ → α → σ → Prop

namespace System

variable {σ α τ : Type*} (system : System σ α)

/-- A run records its labels in the order of the steps. -/
inductive Run : σ → List α → σ → Prop
  | nil (state : σ) : Run state [] state
  | snoc {first labels middle label last} (before : Run first labels middle)
    (step : system.step middle label last)
    : Run first (labels ++ [label]) last

/-- A state is reachable when some run from an initial state ends in it. -/
def Reachable (state : σ) : Prop :=
  ∃ first labels, system.initial first ∧ system.Run first labels state

/-- The same system, taking only the steps that `allowed` accepts in their first state. -/
def guard (allowed : σ → α → Prop) : System σ α where
  initial := system.initial
  step := fun before label after => allowed before label ∧ system.step before label after

variable {system}

/-- An initial state is reachable by the empty run. -/
theorem Reachable.start {state : σ} (initial : system.initial state)
    : system.Reachable state :=
  ⟨state, [], initial, .nil state⟩

/-- One more step keeps a state reachable. -/
theorem Reachable.next {before after : σ} {label : α} (reached : system.Reachable before)
    (step : system.step before label after)
    : system.Reachable after := by
  obtain ⟨first, labels, initial, run⟩ := reached
  exact ⟨first, labels ++ [label], initial, run.snoc step⟩

/-- What every step preserves, every run preserves. -/
theorem Run.preserves {first last : σ} {labels : List α}
    (run : system.Run first labels last) (holds : σ → Prop)
    (preserved
      : ∀ {before label after}, system.step before label after → holds before → holds after)
    (start : holds first)
    : holds last := by
  induction run with
  | nil => exact start
  | snoc _ step ih => exact preserved step ih

/-- What holds initially and is preserved by each step holds in every reachable state. -/
theorem Reachable.invariant {state : σ} (reached : system.Reachable state)
    (holds : σ → Prop)
    (start : ∀ {first}, system.initial first → holds first)
    (preserved
      : ∀ {before label after}, system.step before label after → holds before → holds after)
    : holds state := by
  obtain ⟨first, labels, initial, run⟩ := reached
  exact run.preserves holds preserved (start initial)

/-- Where a step keeps a property exactly when it had held and the step is allowed, a run ends
in the property exactly when all of its steps are allowed.
-/
theorem Run.holds_iff_guard {first last : σ} {labels : List α}
    (run : system.Run first labels last) {allowed : σ → α → Prop} (kept holds : σ → Prop)
    (keptStart : kept first) (start : holds first)
    (keptStep : ∀ {before label after}, system.step before label after → kept before → kept after)
    (iffStep
      : ∀ {before label after}, system.step before label after → kept before →
          (holds after ↔ holds before ∧ allowed before label))
    : holds last ↔ (system.guard allowed).Run first labels last := by
  constructor
  · intro final
    induction run with
    | nil => exact .nil first
    | snoc before step ih =>
        have held := before.preserves kept keptStep keptStart
        obtain ⟨earlier, accepted⟩ := (iffStep step held).mp final
        exact (ih earlier).snoc ⟨accepted, step⟩
  · intro guarded
    have both
        := guarded.preserves (fun state => kept state ∧ holds state)
          (fun step held =>
            ⟨keptStep step.2 held.1, (iffStep step.2 held.1).mpr ⟨held.2, step.1⟩⟩)
          ⟨keptStart, start⟩
    exact both.2

/-- Reachability grows with the initial states and the steps. -/
theorem Reachable.mono {larger : System σ α} {state : σ} (reached : system.Reachable state)
    (initial : ∀ {first}, system.initial first → larger.initial first)
    (step : ∀ {before label after}, system.step before label after → larger.step before label after)
    : larger.Reachable state :=
  reached.invariant larger.Reachable (fun first => .start (initial first))
    (fun taken before => before.next (step taken))

/-- Forgetting the guard of a run, by induction on it. -/
theorem Run.unguard {allowed : σ → α → Prop} {first last : σ} {labels : List α}
    (run : (system.guard allowed).Run first labels last)
    : system.Run first labels last := by
  induction run with
  | nil => exact .nil first
  | snoc _ step ih => exact ih.snoc step.2

/-- A guarded run is a run of the unguarded system. -/
theorem Reachable.unguard {allowed : σ → α → Prop} {state : σ}
    (reached : (system.guard allowed).Reachable state)
    : system.Reachable state :=
  reached.mono id And.right

end System

section Functions

variable {σ α : Type*}

/-- The system whose steps are the results of a partial function, from one start state. -/
def System.ofFunction (start : σ) (next : σ → α → Option σ) : System σ α where
  initial := fun state => state = start
  step := fun before label after => next before label = some after

/-- Runs a list of labels through a partial step function. -/
def replay (next : σ → α → Option σ) : σ → List α → Option σ
  | state, [] => some state
  | state, label :: rest => (next state label).bind (fun after => replay next after rest)

/-- A successful replay extends a run, by induction on its labels. -/
theorem System.Run.replay {start first before after : σ} {next : σ → α → Option σ}
    {taken labels : List α} (run : (System.ofFunction start next).Run first taken before)
    (replayed : replay next before labels = some after)
    : (System.ofFunction start next).Run first (taken ++ labels) after := by
  induction labels generalizing taken before with
  | nil =>
      obtain rfl : before = after := Option.some.inj replayed
      simpa using run
  | cons label rest ih =>
      obtain ⟨middle, step, tail⟩ := Option.bind_eq_some_iff.mp replayed
      have extended := ih (run.snoc step) tail
      rwa [List.append_assoc] at extended

/-- A successful replay extends a reachable state to a reachable state. -/
theorem reachable_of_replay {start : σ} {next : σ → α → Option σ} {labels : List α}
    {before after : σ} (reached : (System.ofFunction start next).Reachable before)
    (replayed : replay next before labels = some after)
    : (System.ofFunction start next).Reachable after := by
  obtain ⟨first, taken, initial, run⟩ := reached
  exact ⟨first, taken ++ labels, initial, run.replay replayed⟩

/-- A replay from the start state is a run of its labels. -/
theorem exists_run_of_replay {start : σ} {next : σ → α → Option σ} (labels : List α)
    (check : σ → Bool) (checked : (replay next start labels).any check = true)
    : ∃ state, (System.ofFunction start next).Run start labels state ∧ check state = true := by
  cases replayed : replay next start labels with
  | none => simp [replayed] at checked
  | some state =>
      have run : (System.ofFunction start next).Run start ([] ++ labels) state :=
        System.Run.replay (.nil start) replayed
      exact ⟨state, run, by simpa [replayed] using checked⟩

/-- A replay from the start state that ends in a state with a checkable property shows
that such a state is reachable.
-/
theorem exists_reachable_of_replay {start : σ} {next : σ → α → Option σ}
    (labels : List α) (check : σ → Bool)
    (checked : (replay next start labels).any check = true)
    : ∃ state, (System.ofFunction start next).Reachable state ∧ check state = true := by
  obtain ⟨state, run, holds⟩ := exists_run_of_replay labels check checked
  exact ⟨state, ⟨start, labels, rfl, run⟩, holds⟩

/-- The same for a guarded system, replaying only steps that the guard accepts. -/
theorem exists_guarded_of_replay {start : σ} {next : σ → α → Option σ}
    (allowed : σ → α → Prop) [∀ state label, Decidable (allowed state label)]
    (labels : List α) (check : σ → Bool)
    (checked
      : (replay (fun state label => if allowed state label then next state label else none)
          start labels).any check = true)
    : ∃ state, ((System.ofFunction start next).guard allowed).Reachable state
        ∧ check state = true := by
  obtain ⟨state, reached, holds⟩ := exists_reachable_of_replay labels check checked
  refine ⟨state, reached.mono id ?_, holds⟩
  intro before label after step
  by_cases accepted : allowed before label
  · exact ⟨accepted, by simpa [System.ofFunction, accepted] using step⟩
  · simp [System.ofFunction, accepted] at step

end Functions

end Transition
