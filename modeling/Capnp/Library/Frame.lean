import Mathlib.Data.List.Basic
import Mathlib.Logic.Basic

/-! Frames for stores that allocate. A store reads cells and owns some of them; a step has an
effect with a footprint when it keeps every cell owned before it that it did not write.
Cells allocated on the way are free to be written.
-/

/-- How a state is read, and which of its cells are allocated. -/
structure Store (σ ι α : Type*) where
  read : σ → ι → α
  owned : σ → ι → Prop

namespace Store

variable {σ ι α : Type*} {store : Store σ ι α}

/-- The step keeps what is owned and changes only the cells in `written`. -/
structure Effect (store : Store σ ι α) (written : ι → Prop) (before after : σ) : Prop where
  grows : ∀ cell, store.owned before cell → store.owned after cell
  kept
    : ∀ cell, store.owned before cell → ¬ written cell →
        store.read after cell = store.read before cell

namespace Effect

variable {written others : ι → Prop} {before middle after : σ}

/-- Doing nothing writes nothing. -/
theorem refl (written : ι → Prop) (state : σ) : store.Effect written state state where
  grows := fun _ => id
  kept := fun _ _ _ => rfl

/-- A footprint may grow, and need not name cells that are not owned. -/
theorem widen (effect : store.Effect written before after)
    (wider : ∀ cell, store.owned before cell → written cell → others cell)
    : store.Effect others before after where
  grows := effect.grows
  kept := fun cell owned unwritten => effect.kept cell owned (fun member =>
    unwritten (wider cell owned member))

/-- Two steps; the second may also write what was not owned before the first. -/
theorem trans (first : store.Effect written before middle)
    (second : store.Effect others middle after)
    (inside : ∀ cell, store.owned before cell → others cell → written cell)
    : store.Effect written before after where
  grows := fun cell owned => second.grows cell (first.grows cell owned)
  kept := fun cell owned unwritten =>
    (second.kept cell (first.grows cell owned) (fun member =>
      unwritten (inside cell owned member))).trans (first.kept cell owned unwritten)

end Effect

/-- A loop of steps with one footprint and an invariant, by list induction. -/
theorem Effect.foldl {β : Type*} {written : ι → Prop} {step : σ → β → σ} {items : List β}
    (holds : σ → Prop)
    (each
      : ∀ item ∈ items, ∀ {state}, holds state →
          holds (step state item) ∧ store.Effect written state (step state item))
    {before : σ} (start : holds before)
    : holds (items.foldl step before) ∧ store.Effect written before (items.foldl step before) := by
  induction items generalizing before with
  | nil => exact ⟨start, .refl written before⟩
  | cons item rest ih =>
      obtain ⟨kept, effect⟩ := each item List.mem_cons_self start
      obtain ⟨last, remaining⟩ :=
        ih (fun other member => each other (List.mem_cons_of_mem _ member)) kept
      exact ⟨last, effect.trans remaining (fun _ _ member => member)⟩

/-- The same for steps that may fail. -/
theorem Effect.foldlM {β : Type*} {written : ι → Prop} {step : σ → β → Option σ}
    {items : List β} (holds : σ → Prop)
    (each
      : ∀ item ∈ items, ∀ {state next}, holds state → step state item = some next →
          holds next ∧ store.Effect written state next)
    {before after : σ} (start : holds before) (ran : items.foldlM step before = some after)
    : holds after ∧ store.Effect written before after := by
  induction items generalizing before with
  | nil =>
      obtain rfl : before = after := Option.some.inj ran
      exact ⟨start, .refl written before⟩
  | cons item rest ih =>
      obtain ⟨middle, first, remaining⟩ := Option.bind_eq_some_iff.mp ran
      obtain ⟨kept, effect⟩ := each item List.mem_cons_self start first
      obtain ⟨last, more⟩ := ih (fun other member => each other (List.mem_cons_of_mem _ member))
        kept remaining
      exact ⟨last, effect.trans more (fun _ _ member => member)⟩

/-- A loop whose steps write cells of their own leaves in each cell what its step wrote. -/
theorem Effect.foldlM_each {β : Type*} {step : σ → β → Option σ} {items : List β}
    (target : β → ι) (post : β → α → Prop) (distinct : (items.map target).Nodup) (holds : σ → Prop)
    (each
      : ∀ item ∈ items, ∀ {state next}, holds state → step state item = some next →
          holds next ∧ store.Effect (fun cell => cell = target item) state next
          ∧ (store.owned state (target item) → post item (store.read next (target item))))
    {before after : σ} (start : holds before) (ran : items.foldlM step before = some after)
    : ∀ item ∈ items, store.owned before (target item) →
        post item (store.read after (target item)) := by
  induction items generalizing before with
  | nil => exact fun item member => absurd member List.not_mem_nil
  | cons first rest ih =>
      rw [List.map_cons, List.nodup_cons] at distinct
      have others (item : β) (member : item ∈ rest) := @each item (List.mem_cons_of_mem _ member)
      obtain ⟨middle, one, remaining⟩ := Option.bind_eq_some_iff.mp ran
      obtain ⟨kept, effect, wrote⟩ := each first List.mem_cons_self start one
      intro item member owned
      rcases List.mem_cons.mp member with same | member
      · rw [same] at owned ⊢
        have untouched
            : holds after ∧ store.Effect (fun cell => cell ∈ rest.map target) middle after := by
          apply Effect.foldlM holds _ kept remaining
          intro other member state next kept ran
          obtain ⟨kept, effect, -⟩ := others other member kept ran
          refine ⟨kept, effect.widen ?_⟩
          intro cell _ same
          rw [same]
          exact List.mem_map_of_mem member
        rw [untouched.2.kept _ (effect.grows _ owned) distinct.1]
        exact wrote owned
      · exact ih distinct.2 others kept remaining item member (effect.grows _ owned)

/-- What holds after a step whatever is later written elsewhere: later states may change the
cells that were owned before the step, except its own.
-/
def Settles (store : Store σ ι α) (cells : ι → Prop) (before after : σ) (post : σ → Prop)
    : Prop :=
  ∀ later, store.Effect (fun cell => store.owned before cell ∧ ¬ cells cell) after later →
    post later

/-- A loop whose steps own regions apart from each other settles what each of its steps does,
by list induction: the later steps write elsewhere.
-/
theorem Settles.foldlM {β : Type*} {step : σ → β → Option σ} {items : List β}
    (region : β → ι → Prop) (post : β → σ → Prop)
    (apart : items.Pairwise (fun item other => ∀ cell, region item cell → ¬ region other cell))
    (holds : σ → Prop)
    (each
      : ∀ item ∈ items, ∀ {state next}, holds state →
          (∀ cell, region item cell → store.owned state cell) → step state item = some next →
          holds next ∧ store.Effect (region item) state next
          ∧ store.Settles (region item) state next (post item))
    {before after : σ} (start : holds before)
    (owned : ∀ item ∈ items, ∀ cell, region item cell → store.owned before cell)
    (ran : items.foldlM step before = some after)
    : (holds after ∧ store.Effect (fun cell => ∃ item ∈ items, region item cell) before after)
      ∧ ∀ item ∈ items,
          store.Settles (fun cell => ∃ item ∈ items, region item cell) before after
            (post item) := by
  induction items generalizing before with
  | nil =>
      obtain rfl : before = after := Option.some.inj ran
      exact ⟨⟨start, .refl _ before⟩, fun item member => absurd member List.not_mem_nil⟩
  | cons first rest ih =>
      rw [List.pairwise_cons] at apart
      obtain ⟨middle, one, remaining⟩ := Option.bind_eq_some_iff.mp ran
      obtain ⟨kept, effect, settled⟩ :=
        each first List.mem_cons_self start (owned first List.mem_cons_self) one
      have ownedRest (item : β) (member : item ∈ rest) := owned item (List.mem_cons_of_mem _ member)
      obtain ⟨⟨last, restEffect⟩, restSettled⟩ :=
        ih apart.2 (fun item member => each item (List.mem_cons_of_mem _ member)) kept
          (fun item member cell inside => effect.grows _ (ownedRest item member cell inside))
          remaining
      refine ⟨⟨last, ?_⟩, fun item member later foreign => ?_⟩
      · refine (effect.widen ?_).trans restEffect ?_
        · exact fun cell _ inside => ⟨first, List.mem_cons_self, inside⟩
        · rintro cell - ⟨item, member, inside⟩
          exact ⟨item, List.mem_cons_of_mem _ member, inside⟩
      · rcases List.mem_cons.mp member with rfl | member
        · refine settled later ((restEffect.widen ?_).trans foreign ?_)
          · rintro cell - ⟨other, member, inside⟩
            exact ⟨ownedRest other member cell inside,
              fun here => apart.1 other member cell here inside⟩
          · rintro cell - ⟨before, outside⟩
            exact ⟨before, fun here => outside ⟨item, List.mem_cons_self, here⟩⟩
        · refine restSettled item member later (foreign.widen ?_)
          rintro cell - ⟨before, outside⟩
          refine ⟨effect.grows _ before, ?_⟩
          rintro ⟨other, member, inside⟩
          exact outside ⟨other, List.mem_cons_of_mem _ member, inside⟩

/-- The same for steps that never fail. -/
theorem Settles.foldl {β : Type*} (step : σ → β → σ) {items : List β}
    (region : β → ι → Prop) (post : β → σ → Prop)
    (apart : items.Pairwise (fun item other => ∀ cell, region item cell → ¬ region other cell))
    (holds : σ → Prop)
    (each
      : ∀ item ∈ items, ∀ {state}, holds state →
          (∀ cell, region item cell → store.owned state cell) →
          holds (step state item) ∧ store.Effect (region item) state (step state item)
          ∧ store.Settles (region item) state (step state item) (post item))
    {before : σ} (start : holds before)
    (owned : ∀ item ∈ items, ∀ cell, region item cell → store.owned before cell)
    : (holds (items.foldl step before)
        ∧ store.Effect (fun cell => ∃ item ∈ items, region item cell) before
            (items.foldl step before))
      ∧ ∀ item ∈ items,
          store.Settles (fun cell => ∃ item ∈ items, region item cell) before
            (items.foldl step before) (post item) := by
  have ran
      : items.foldlM (fun state item => some (step state item)) before
        = some (items.foldl step before) :=
    List.foldlM_pure
  refine Settles.foldlM region post apart holds ?_ start owned ran
  rintro item member state _ held inside ⟨⟩
  exact each item member held inside

/-- What holds of a state and of all later ones while others write to the shared cells, but for
one cell.
-/
def Lasts (store : Store σ ι α) (shared : ι → Prop) (cell : ι) (state : σ) (post : σ → Prop)
    : Prop :=
  ∀ later, store.Effect (fun other => shared other ∧ other ≠ cell) state later → post later

/-- What a step settled lasts while all that is written was owned before it. -/
theorem Settles.lasts {cell : ι} {shared : ι → Prop} {before after : σ} {post : σ → Prop}
    (settled : store.Settles (fun other => other = cell) before after post)
    (owned : ∀ other, store.owned after other → shared other → store.owned before other)
    : store.Lasts shared cell after post :=
  fun later effect => settled later (effect.widen (fun other now both =>
    ⟨owned other now both.1, both.2⟩))

/-- A step elsewhere; only cells that it allocates may become shared. -/
theorem Lasts.step {cell : ι} {shared shared' written : ι → Prop} {before after : σ}
    {post : σ → Prop} (lasts : store.Lasts shared cell before post)
    (effect : store.Effect written before after)
    (inside : ∀ other, written other → shared other ∧ other ≠ cell)
    (fresh : ∀ other, store.owned before other → shared' other → shared other)
    : store.Lasts shared' cell after post :=
  fun later more => lasts later
    ((effect.widen (fun other _ => inside other)).trans more (fun other owned both =>
      ⟨fresh other owned both.1, both.2⟩))

end Store
