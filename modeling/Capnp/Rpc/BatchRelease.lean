import Capnp.Rpc.PeerLifetime

/-! When releasing a batch of targets is all or nothing.
The batch is dropped target by target and ends at the first id that is not live, so its
outcome depends on where that id stands.
-/

namespace Capnp.Rpc

variable {Cap : Type*}

/-- The ids a batch release looks at: it skips those of the null capability. -/
def capIdsOf (targets : List UInt32) : List UInt32 :=
  targets.filter (fun target => target != 0)

/-- The ids that are not null. -/
@[simp] theorem mem_capIdsOf {targets : List UInt32} {target : UInt32}
    : target ∈ capIdsOf targets ↔ target ∈ targets ∧ target ≠ 0 := by
  simp [capIdsOf]

/-- A batch release succeeds and takes exactly the given targets out of the table, or throws
and leaves the table and both ownership structures.
-/
def ReleasedAllOrNothing (runtime : RuntimeTargets Cap) (targets : List UInt32) : Prop :=
  match releaseTargets runtime targets with
  | (.ok _, after) =>
      ∀ target,
        after.targets.lookup target
        = if target ∈ targets then none else runtime.targets.lookup target
  | (.error _, after) =>
      after.targets = runtime.targets
        ∧ after.loopback = runtime.loopback
        ∧ after.network = runtime.network

/-- Every id but null is live and given once, and null is not given while it is a live id. -/
structure BatchLive (runtime : RuntimeTargets Cap) (targets : List UInt32) : Prop where
  live : ∀ target ∈ capIdsOf targets, target ∈ runtime.targets
  once : (capIdsOf targets).Nodup
  null : 0 ∈ targets → 0 ∉ runtime.targets

/-- The first id but null is unknown, both as a target and as a holder of a peer. -/
def StartsUnknown (runtime : RuntimeTargets Cap) (targets : List UInt32) : Prop :=
  ∃ target, (capIdsOf targets).head? = some target
    ∧ target ∉ runtime.targets
    ∧ target ∉ runtime.loopback.ownerByTarget
    ∧ target ∉ runtime.network.ownerByTarget

-----------------------------------------------------------------------------------------
-- What the loop does to the table
-----------------------------------------------------------------------------------------

/-- Null ids are passed over. -/
theorem releaseTargets_capIdsOf (runtime : RuntimeTargets Cap) (targets : List UInt32)
    : releaseTargets runtime targets = releaseTargets runtime (capIdsOf targets) := by
  induction targets generalizing runtime with
  | nil => rfl
  | cons target rest ih =>
      rcases eq_or_ne target 0 with rfl | capId
      · simpa [releaseTargets, capIdsOf] using ih runtime
      · have kept : capIdsOf (target :: rest) = target :: capIdsOf rest := by
          simp [capIdsOf, capId]
        simp only [kept, releaseTargets, if_neg capId, ih]

/-- Targets are dropped one by one. -/
theorem dropRequestCaps_cons (runtime : RuntimeTargets Cap) (target : UInt32)
    (rest : List UInt32)
    : dropRequestCaps runtime (target :: rest)
      = dropRequestCaps (dropTargetIfPresent runtime target).2 rest := rfl

/-- Dropping a list of ids takes exactly these out of the table. -/
theorem lookup_dropRequestCaps (runtime : RuntimeTargets Cap) (targets : List UInt32)
    (target : UInt32)
    : (dropRequestCaps runtime targets).targets.lookup target
      = if target ∈ targets then none else runtime.targets.lookup target := by
  rw [← Table.lookup_foldl_erase targets runtime.targets target]
  congr 1
  induction targets generalizing runtime with
  | nil => rfl
  | cons first rest ih => exact ih (dropTargetIfPresent runtime first).2

/-- The loop drops a prefix of the batch, of live ids given once, up to the end or to an id
that is unknown by then.
-/
inductive BatchOutcome (runtime : RuntimeTargets Cap)
    : List UInt32 → Except String Unit × RuntimeTargets Cap → Prop
  | released {targets} (live : ∀ target ∈ targets, target ∈ runtime.targets)
    (once : targets.Nodup)
    : BatchOutcome runtime targets (.ok (), dropRequestCaps runtime targets)
  | failed {gone unknown rest} (live : ∀ target ∈ gone, target ∈ runtime.targets)
    (missing : unknown ∈ gone ∨ unknown ∉ runtime.targets)
    : BatchOutcome runtime (gone ++ unknown :: rest)
        (.error (unknownTarget unknown), dropRequestCaps runtime (gone ++ [unknown]))

/-- One more live id in front of the batch, which is dropped first. -/
theorem BatchOutcome.cons {runtime : RuntimeTargets Cap} {target : UInt32}
    {rest : List UInt32} {result : Except String Unit × RuntimeTargets Cap}
    (present : target ∈ runtime.targets)
    (outcome : BatchOutcome (dropTargetIfPresent runtime target).2 rest result)
    : BatchOutcome runtime (target :: rest) result := by
  have remaining {other : UInt32}
      : other ∈ (dropTargetIfPresent runtime target).2.targets
        ↔ other ≠ target ∧ other ∈ runtime.targets := AList.mem_erase
  cases outcome with
  | released live once =>
      rw [← dropRequestCaps_cons]
      refine .released ?_ ?_
      · exact List.forall_mem_cons.mpr
          ⟨present, fun other member => (remaining.mp (live other member)).2⟩
      · exact List.nodup_cons.mpr
          ⟨fun again => (remaining.mp (live target again)).1 rfl, once⟩
  | @failed gone unknown after live missing =>
      rw [← dropRequestCaps_cons, ← List.cons_append, ← List.cons_append]
      refine .failed ?_ ?_
      · exact List.forall_mem_cons.mpr
          ⟨present, fun other member => (remaining.mp (live other member)).2⟩
      · rcases missing with again | absent
        · exact .inl (List.mem_cons_of_mem _ again)
        · rcases eq_or_ne unknown target with rfl | different
          · exact .inl List.mem_cons_self
          · exact .inr (fun known => absent (remaining.mpr ⟨different, known⟩))

/-- The outcome of every batch without null ids, by induction on it. -/
theorem releaseTargets_outcome {targets : List UInt32} (capIds : 0 ∉ targets)
    (runtime : RuntimeTargets Cap)
    : BatchOutcome runtime targets (releaseTargets runtime targets) := by
  induction targets generalizing runtime with
  | nil => exact .released (by simp) .nil
  | cons target rest ih =>
      have capId : target ≠ 0 := fun null => capIds (null ▸ List.mem_cons_self)
      simp only [releaseTargets, if_neg capId]
      rcases Decidable.em (target ∈ runtime.targets) with present | absent
      · have here : (dropTargetIfPresent runtime target).1 = true := decide_eq_true present
        rw [if_pos here]
        exact .cons present (ih (fun null => capIds (List.mem_cons_of_mem _ null)) _)
      · have here : ¬ (dropTargetIfPresent runtime target).1 = true := by
          simpa [dropTargetIfPresent] using absent
        rw [if_neg here]
        have outcome : BatchOutcome runtime ([] ++ target :: rest) _ :=
          .failed (by simp) (.inr absent)
        exact outcome

-----------------------------------------------------------------------------------------
-- All or nothing
-----------------------------------------------------------------------------------------

/-- Releasing the ownership of an id leaves a structure exactly when the id holds none. -/
theorem releasePeerOwnership_eq_self {own : PeerOwnership} {target : UInt32}
    : releasePeerOwnership target own = own ↔ target ∉ own.ownerByTarget := by
  constructor
  · intro same member
    have erased := ownerByTarget_release target own
    rw [same] at erased
    rw [erased] at member
    exact (AList.mem_erase.mp member).1 rfl
  · intro unheld
    rw [releasePeerOwnership, AList.lookup_eq_none.mpr unheld]

/-- Dropping an id that is not a target leaves everything exactly when it holds no peer. -/
theorem dropTargetIfPresent_unchanged {runtime : RuntimeTargets Cap} {target : UInt32}
    (absent : target ∉ runtime.targets)
    : ((dropTargetIfPresent runtime target).2.targets = runtime.targets
          ∧ (dropTargetIfPresent runtime target).2.loopback = runtime.loopback
          ∧ (dropTargetIfPresent runtime target).2.network = runtime.network)
        ↔ target ∉ runtime.loopback.ownerByTarget
          ∧ target ∉ runtime.network.ownerByTarget := by
  have kept : runtime.targets.erase target = runtime.targets :=
    AList.ext (List.kerase_of_notMem_keys absent)
  simp only [dropTargetIfPresent, kept, true_and, releasePeerOwnership_eq_self]

/-- A released batch was given as it was removed, unless null is a live id. -/
theorem removes_given_iff {runtime : RuntimeTargets Cap} {targets : List UInt32}
    : (∀ target,
          (dropRequestCaps runtime (capIdsOf targets)).targets.lookup target
          = if target ∈ targets then none else runtime.targets.lookup target)
        ↔ (0 ∈ targets → 0 ∉ runtime.targets) := by
  simp only [lookup_dropRequestCaps, mem_capIdsOf]
  constructor
  · intro removed given
    exact AList.lookup_eq_none.mp (by simpa [given] using removed 0)
  · intro null target
    rcases eq_or_ne target 0 with rfl | capId
    · by_cases given : 0 ∈ targets
      · simpa [given] using AList.lookup_eq_none.mpr (null given)
      · simp [given]
    · simp [capId]

/-- A batch release is all or nothing exactly when all of the batch is live and given once,
or its first id is unknown already.
-/
theorem releasedAllOrNothing_iff (runtime : RuntimeTargets Cap) (targets : List UInt32)
    : ReleasedAllOrNothing runtime targets
      ↔ BatchLive runtime targets ∨ StartsUnknown runtime targets := by
  have outcome : BatchOutcome runtime (capIdsOf targets) (releaseTargets runtime targets) := by
    rw [releaseTargets_capIdsOf]
    exact releaseTargets_outcome (by simp) runtime
  unfold ReleasedAllOrNothing StartsUnknown
  generalize releaseTargets runtime targets = result at outcome
  generalize ids : capIdsOf targets = capIds at outcome
  cases outcome with
  | released live once =>
      subst ids
      refine removes_given_iff.trans ?_
      constructor
      · exact fun null => .inl ⟨live, once, null⟩
      · rintro (whole | ⟨target, first, absent, _⟩)
        · exact whole.null
        · exact absurd (live target (List.mem_of_mem_head? first)) absent
  | @failed gone unknown rest live missing =>
      have notWhole : ¬ BatchLive runtime targets := by
        intro whole
        have wholeLive := whole.live
        have wholeOnce := whole.once
        rw [ids] at wholeLive wholeOnce
        rcases missing with again | absent
        · exact (List.nodup_append.mp wholeOnce).2.2 unknown again unknown
            List.mem_cons_self rfl
        · exact absent (wholeLive unknown (by simp))
      rw [or_iff_right notWhole]
      cases gone with
      | nil =>
          have absent : unknown ∉ runtime.targets := by simpa using missing
          refine (dropTargetIfPresent_unchanged absent).trans ?_
          simp [absent]
      | cons first others =>
          have present := live first List.mem_cons_self
          constructor
          · rintro ⟨same, _⟩
            have dropped := lookup_dropRequestCaps runtime (first :: others ++ [unknown]) first
            rw [same, if_pos (by simp)] at dropped
            exact absurd present (AList.lookup_eq_none.mp dropped)
          · rintro ⟨target, head, absent, _⟩
            obtain rfl : first = target := by simpa using head
            exact absurd present absent

/-- With the one target 1 registered, releasing 1 and the unknown 2 throws and drops 1. -/
theorem releaseTargets_not_allOrNothing
    : ¬ ∀ runtime : RuntimeTargets Nat, (targetSystem Nat).Reachable runtime →
        ∀ targets, ReleasedAllOrNothing runtime targets := by
  intro whole
  let checks (runtime : RuntimeTargets Nat) : Bool :=
    decide (1 ∈ runtime.targets)
      && decide (1 ∉ (releaseTargets runtime [1, 2]).2.targets)
      && !(releaseTargets runtime [1, 2]).1.isOk
  have replayed : ∃ runtime, (targetSystem Nat).Reachable runtime ∧ checks runtime = true :=
    Transition.exists_reachable_of_replay [.addCap 7] checks (by decide)
  obtain ⟨runtime, reached, checked⟩ := replayed
  simp only [checks, Bool.and_eq_true, decide_eq_true_eq] at checked
  obtain ⟨⟨known, dropped⟩, threw⟩ := checked
  have batch := whole runtime reached [1, 2]
  unfold ReleasedAllOrNothing at batch
  split at batch
  · next released => simp [released, Except.isOk, Except.toBool] at threw
  · next failed => exact dropped (by rw [failed, batch.1]; exact known)

end Capnp.Rpc
