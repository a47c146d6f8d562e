import Capnp.Rpc.Targets

/-! Which ids new targets get. The id counter is a bare 32-bit number, so that a scan for an
unused id may run over its end and hand out 0, the id of the null capability.
-/

namespace Capnp.Rpc

/-- The allocated id is the first unused one from the counter on, by induction on the scan. -/
theorem allocateId_first {α : Type*} {table : Table UInt32 α} {fuel : Nat}
    {next targetId counter : UInt32}
    (allocated : allocateId table fuel next = some (targetId, counter))
    : ∃ skipped < fuel, targetId = next + UInt32.ofNat skipped
        ∧ ∀ offset < skipped, next + UInt32.ofNat offset ∈ table := by
  induction fuel generalizing next with
  | zero => simp [allocateId] at allocated
  | succ fuel ih =>
      by_cases used : next ∈ table
      · obtain ⟨skipped, below, same, before⟩ :=
          ih (by simpa only [allocateId, used, if_true] using allocated)
        have shift (offset : Nat)
            : next + 1 + UInt32.ofNat offset = next + UInt32.ofNat (offset + 1) := by
          rw [UInt32.add_assoc, UInt32.add_comm 1, ← UInt32.ofNat_one, ← UInt32.ofNat_add]
        refine ⟨skipped + 1, by omega, same.trans (shift skipped), fun offset inside => ?_⟩
        cases offset with
        | zero => simpa using used
        | succ offset => exact shift offset ▸ before offset (by omega)
      · simp only [allocateId, used, if_false, Option.some.injEq, Prod.mk.injEq] at allocated
        exact ⟨0, by omega, by simp [allocated.1], fun offset inside => by omega⟩

/-- An unused id that the counter reaches before it wraps around. -/
def IdBeforeWrap {α : Type*} (table : Table UInt32 α) (next : UInt32) : Prop :=
  next ≠ 0 ∧ ∃ targetId, next ≤ targetId ∧ targetId ∉ table

/-- The counter grows without a wrap where there is room. -/
theorem toNat_add_ofNat {next : UInt32} {offset : Nat} (fits : next.toNat + offset < 2 ^ 32)
    : (next + UInt32.ofNat offset).toNat = next.toNat + offset := by
  have small : offset < UInt32.size := (by omega : offset < 2 ^ 32)
  rw [UInt32.toNat_add, UInt32.toNat_ofNat_of_lt' small, Nat.mod_eq_of_lt fits]

/-- A counter on an unused id hands out that id. -/
theorem addTarget_of_unused {Cap : Type*} {runtime : RuntimeTargets Cap} (cap : Cap)
    (unused : runtime.nextTargetId ∉ runtime.targets)
    : addTarget runtime cap
      = some (runtime.nextTargetId,
          { runtime with
            targets := runtime.targets.insert runtime.nextTargetId cap
            nextTargetId := runtime.nextTargetId + 1
            allocated := runtime.allocated + 1 }) := by
  simp [addTarget, allocateId, unused]

/-- Counting up to the end of the ids leads to 0. -/
theorem add_ofNat_complement (next : UInt32)
    : next + UInt32.ofNat (2 ^ 32 - next.toNat) = 0 := by
  have range := next.toNat_lt
  rw [← UInt32.toNat_inj, UInt32.toNat_add, UInt32.toNat_ofNat']
  simp only [UInt32.toNat_zero]
  omega

/-- While 0 itself is unused, the scan avoids it exactly when it does not wrap around. -/
theorem allocateId_ne_zero_iff {α : Type*} {table : Table UInt32 α} {fuel : Nat}
    {next targetId counter : UInt32} (free : 0 ∉ table)
    (allocated : allocateId table fuel next = some (targetId, counter))
    : targetId ≠ 0 ↔ IdBeforeWrap table next := by
  obtain ⟨skipped, -, rfl, before⟩ := allocateId_first allocated
  have unused := (allocateId_spec allocated).1
  have range := next.toNat_lt
  constructor
  · intro nonzero
    have inside : next.toNat + skipped < 2 ^ 32 := by
      by_contra wrapped
      rcases Nat.lt_or_ge (2 ^ 32 - next.toNat) skipped with passed | stopped
      · exact free (add_ofNat_complement next ▸ before _ passed)
      · obtain rfl : skipped = 2 ^ 32 - next.toNat := by omega
        exact nonzero (add_ofNat_complement next)
    refine ⟨?_, _, ?_, unused⟩
    · intro zero
      subst zero
      cases skipped with
      | zero => exact nonzero rfl
      | succ skipped => exact free (before 0 (by omega))
    · rw [UInt32.le_iff_toNat_le, toNat_add_ofNat inside]
      omega
  · rintro ⟨started, found, later, unusedFound⟩ zero
    rw [UInt32.le_iff_toNat_le] at later
    have foundRange := found.toNat_lt
    have position : next + UInt32.ofNat (found.toNat - next.toNat) = found := by
      rw [← UInt32.toNat_inj, toNat_add_ofNat (by omega)]
      omega
    have reached : skipped ≤ found.toNat - next.toNat := by
      by_contra passed
      exact unusedFound (position ▸ before _ (by omega))
    have value := toNat_add_ofNat (by omega : next.toNat + skipped < 2 ^ 32)
    rw [zero] at value
    apply started
    rw [← UInt32.toNat_inj]
    simp only [UInt32.toNat_zero] at value ⊢
    omega

-----------------------------------------------------------------------------------------
-- Operations that add a target
-----------------------------------------------------------------------------------------

variable {Cap : Type*}

/-- Whether an operation reaches `addTarget`. -/
def TargetOp.adds (runtime : RuntimeTargets Cap) : TargetOp Cap → Bool
  | .addCap _ => true
  | .connect outcome => outcome.isOk
  | .registerLoopback bootstrapTarget _ =>
      (bootstrapTarget.filter (fun target => !decide (target ∈ runtime.targets))).isNone
  | .retain target => decide (target ∈ runtime.targets)
  | .registerTailCall target _ => decide (target ∈ runtime.targets)
  | _ => false

/-- An operation that adds a target allocates its id and answers with it. -/
theorem TargetOp.run_of_adds {runtime : RuntimeTargets Cap} {op : TargetOp Cap}
    (adds : op.adds runtime = true)
    : ∃ (cap : Cap) (own : UInt32 → RuntimeTargets Cap → RuntimeTargets Cap),
        op.run runtime
          = (addTarget runtime cap).map (fun (id, after) => (.ok (some id), own id after))
        ∧ ∀ id after, (own id after).targets = after.targets := by
  cases op with
  | addCap cap => exact ⟨cap, fun _ after => after, rfl, fun _ _ => rfl⟩
  | connect outcome =>
      cases outcome with
      | error message => simp [TargetOp.adds, Except.isOk, Except.toBool] at adds
      | ok cap =>
          refine ⟨cap, fun id after => { after with network := adoptPeer id after.network }, ?_,
            fun _ _ => rfl⟩
          simp [TargetOp.run, connectTargetPeer, Function.comp_def]
  | registerLoopback bootstrapTarget cap =>
      rw [TargetOp.adds, Option.isNone_iff_eq_none] at adds
      refine ⟨cap, fun id after => { after with loopback := adoptPeer id after.loopback }, ?_,
        fun _ _ => rfl⟩
      simp [TargetOp.run, adds, registerLoopbackPeer, Function.comp_def]
  | retain target =>
      obtain ⟨cap, found⟩ :=
        Option.isSome_iff_exists.mp (AList.lookup_isSome.mpr (of_decide_eq_true adds))
      refine ⟨cap, retainOwners target, ?_, fun _ _ => rfl⟩
      simp [TargetOp.run, retainTarget, found, withId, Function.comp_def, Except.map]
  | registerTailCall target forwarder =>
      obtain ⟨cap, found⟩ :=
        Option.isSome_iff_exists.mp (AList.lookup_isSome.mpr (of_decide_eq_true adds))
      refine ⟨forwarder cap, retainOwners target, ?_, fun _ _ => rfl⟩
      simp [TargetOp.run, registerTailCallTarget, found, withId, Function.comp_def, Except.map]
  | _ => simp [TargetOp.adds] at adds

/-- A result without an id has none. -/
theorem withoutId_ne_id {σ : Type*} (result : Except String Unit × σ) (targetId : UInt32)
    : (withoutId result).1 ≠ .ok (some targetId) := by
  obtain ⟨answer, after⟩ := result
  cases answer <;> simp [withoutId, Except.map]

/-- A failure answers with no id. -/
theorem error_ne_id (message : String) (targetId : UInt32)
    : (.error message : Except String (Option UInt32)) ≠ .ok (some targetId) := by
  simp

/-- Dropping adds no target. -/
theorem mem_of_mem_dropRequestCaps {runtime : RuntimeTargets Cap} {gone : List UInt32}
    {target : UInt32} (member : target ∈ (dropRequestCaps runtime gone).targets)
    : target ∈ runtime.targets := by
  revert member
  apply dropRequestCaps_preserves
    (fun state => target ∈ state.targets → target ∈ runtime.targets) _ id
  intro before other _ kept member
  exact kept (AList.mem_erase.mp member).2

/-- Any other operation answers with no id and adds no target. -/
theorem TargetOp.run_of_not_adds {runtime : RuntimeTargets Cap} {op : TargetOp Cap}
    (adds : op.adds runtime = false)
    : ∃ answer after, op.run runtime = some (answer, after)
        ∧ (∀ targetId, answer ≠ .ok (some targetId))
        ∧ ∀ target ∈ after.targets, target ∈ runtime.targets := by
  cases op with
  | connect outcome =>
      cases outcome with
      | error message => exact ⟨_, _, rfl, error_ne_id _, fun _ => id⟩
      | ok cap => simp [TargetOp.adds, Except.isOk, Except.toBool] at adds
  | registerLoopback bootstrapTarget cap =>
      rw [TargetOp.adds, Option.isNone_eq_false_iff] at adds
      obtain ⟨target, missing⟩ := Option.isSome_iff_exists.mp adds
      refine ⟨.error (unknownTarget target), runtime, ?_, error_ne_id _, fun _ => id⟩
      simp [TargetOp.run, missing]
  | retain target =>
      have missing := AList.lookup_eq_none.mpr (of_decide_eq_false adds)
      refine ⟨.error (unknownTarget target), runtime, ?_, error_ne_id _, fun _ => id⟩
      simp [TargetOp.run, retainTarget, missing, withId, Except.map]
  | registerTailCall target forwarder =>
      have missing := AList.lookup_eq_none.mpr (of_decide_eq_false adds)
      refine ⟨.error (unknownTarget target), runtime, ?_, error_ne_id _, fun _ => id⟩
      simp [TargetOp.run, registerTailCallTarget, missing, withId, Except.map]
  | addCap cap => simp [TargetOp.adds] at adds
  | release target =>
      refine ⟨_, _, rfl, withoutId_ne_id (releaseTarget runtime target), ?_⟩
      exact fun other member => (AList.mem_erase.mp member).2
  | releaseMany targets =>
      refine ⟨_, _, rfl, withoutId_ne_id (releaseTargets runtime targets), ?_⟩
      obtain ⟨gone, -, same⟩ := releaseTargets_eq_dropRequestCaps runtime targets
      intro target member
      exact mem_of_mem_dropRequestCaps (same ▸ member)
  | dropRequest _ =>
      exact ⟨_, _, rfl, fun _ same => by simp at same, fun _ => mem_of_mem_dropRequestCaps⟩
  | dropRequestExcept requestCapIds retainedCaps =>
      refine
        ⟨_, _, rfl, withoutId_ne_id (dropRequestCapsExcept runtime _ _), fun target member => ?_⟩
      rw [snd_dropRequestCapsExcept] at member
      exact mem_of_mem_dropRequestCaps member
  | dropRequestExceptOne _ _ =>
      exact ⟨_, _, rfl, fun _ same => by simp at same, fun _ => mem_of_mem_dropRequestCaps⟩

/-- The operation ends, and a target that it adds has a non-null id of its own under which
nothing was stored; the targets that it does not drop keep their capabilities.
-/
def AddsFresh (runtime : RuntimeTargets Cap) (op : TargetOp Cap) : Prop :=
  ∃ answer after, op.run runtime = some (answer, after)
    ∧ (∀ targetId, answer = .ok (some targetId) → targetId ≠ 0 ∧ targetId ∉ runtime.targets)
    ∧ ∀ target ∉ op.dropped, ∀ cap, runtime.targets.lookup target = some cap →
        after.targets.lookup target = some cap

/-- An operation that adds a target finds an unused id before the counter wraps around. -/
def FindsIdBeforeWrap (runtime : RuntimeTargets Cap) (op : TargetOp Cap) : Prop :=
  op.adds runtime = true → IdBeforeWrap runtime.targets runtime.nextTargetId

/-- The new id is fresh exactly if one is found before the counter wraps. -/
theorem addsFresh_iff {runtime : RuntimeTargets Cap} (free : 0 ∉ runtime.targets)
    (room : runtime.targets.keys.length < 2 ^ 32) (op : TargetOp Cap)
    : AddsFresh runtime op ↔ FindsIdBeforeWrap runtime op := by
  cases adds : op.adds runtime with
  | false =>
      obtain ⟨answer, after, ran, noId, -⟩ := TargetOp.run_of_not_adds adds
      refine iff_of_true ⟨answer, after, ran, ?_, ?_⟩ (fun adding => ?_)
      · exact fun targetId same => absurd same (noId targetId)
      · exact fun target spared cap found => (TargetOp.run_effect ran).keeps spared found
      · simp [adds] at adding
  | true =>
      obtain ⟨cap, own, runs, -⟩ := TargetOp.run_of_adds adds
      obtain ⟨⟨targetId, next⟩, allocated⟩ :=
        Option.isSome_iff_exists.mp (allocateId_isSome runtime.targets runtime.nextTargetId room)
      have nonzero := allocateId_ne_zero_iff free allocated
      rw [addTarget, allocated] at runs
      constructor
      · rintro ⟨answer, after, ran, fresh, -⟩ -
        obtain ⟨rfl, -⟩ := Prod.mk.inj (Option.some.inj (runs.symm.trans ran))
        exact nonzero.mp (fresh targetId rfl).1
      · intro finds
        refine ⟨_, _, runs, ?_, ?_⟩
        · intro other same
          obtain rfl : targetId = other := Option.some.inj (Except.ok.inj same)
          exact ⟨nonzero.mpr (finds adds), (allocateId_spec allocated).1⟩
        · exact fun target spared cap found => (TargetOp.run_effect runs).keeps spared found

/-- A step that finds its id before the counter wraps around leaves 0 unused. -/
theorem zero_notMem_of_run {runtime after : RuntimeTargets Cap} {op : TargetOp Cap}
    {answer : Except String (Option UInt32)} (finds : FindsIdBeforeWrap runtime op)
    (ran : op.run runtime = some (answer, after)) (free : 0 ∉ runtime.targets)
    : 0 ∉ after.targets := by
  cases adds : op.adds runtime with
  | false =>
      obtain ⟨_, _, runs, -, kept⟩ := TargetOp.run_of_not_adds adds
      obtain ⟨-, rfl⟩ := Prod.mk.inj (Option.some.inj (runs.symm.trans ran))
      exact fun member => free (kept 0 member)
  | true =>
      obtain ⟨cap, own, runs, targets⟩ := TargetOp.run_of_adds adds
      obtain ⟨⟨targetId, added⟩, adding, same⟩ := Option.map_eq_some_iff.mp (runs.symm.trans ran)
      obtain ⟨-, rfl⟩ := Prod.mk.inj same
      obtain ⟨⟨foundId, counter⟩, allocated, same⟩ := Option.map_eq_some_iff.mp adding
      obtain ⟨rfl, rfl⟩ := Prod.mk.inj same
      have nonzero := (allocateId_ne_zero_iff free allocated).mpr (finds adds)
      rw [targets]
      intro member
      rcases (AList.mem_insert _).mp member with zero | old
      · exact nonzero zero.symm
      · exact free old

/-- Runs whose additions all find an id before the counter wraps around. -/
def wrapFreeSystem (Cap : Type*) : Transition.System (RuntimeTargets Cap) (TargetOp Cap) :=
  (targetSystem Cap).guard FindsIdBeforeWrap

/-- The null id is never a target without a wrap. -/
theorem zero_notMem_of_reachable {runtime : RuntimeTargets Cap}
    (reached : (wrapFreeSystem Cap).Reachable runtime) : 0 ∉ runtime.targets := by
  apply reached.invariant (fun state => 0 ∉ state.targets)
  · rintro first rfl
    exact AList.notMem_empty 0
  · intro before op after step free
    obtain ⟨finds, step⟩ := step
    obtain ⟨⟨answer, left⟩, ran, rfl⟩ := Option.map_eq_some_iff.mp step
    exact zero_notMem_of_run finds ran free

/-- In every state of a run that has not handed out the null id, and with room left, the next
operation adds under a fresh and non-null id exactly when it finds one before the counter
wraps around.
-/
theorem target_ids_fresh_iff {runtime : RuntimeTargets Cap}
    (reached : (wrapFreeSystem Cap).Reachable runtime)
    (room : runtime.targets.keys.length < 2 ^ 32 - 1) (op : TargetOp Cap)
    : AddsFresh runtime op ↔ FindsIdBeforeWrap runtime op :=
  addsFresh_iff (zero_notMem_of_reachable reached) (by omega) op

/-- Witness: one more target beside the first. -/
theorem target_ids_fresh_iff_second
    : ∃ runtime : RuntimeTargets Nat, runtime.targets.keys = [1]
        ∧ (AddsFresh runtime (.addCap 8) ↔ FindsIdBeforeWrap runtime (.addCap 8)) := by
  let first : RuntimeTargets Nat :=
    { targets := (∅ : Table UInt32 Nat).insert 1 7, nextTargetId := 2, allocated := 1 }
  have finds : FindsIdBeforeWrap ({} : RuntimeTargets Nat) (.addCap 7) :=
    fun _ => ⟨by decide, 1, by decide, by decide⟩
  have reached : (wrapFreeSystem Nat).Reachable first :=
    Transition.System.Reachable.next (.start rfl) ⟨finds, rfl⟩
  exact ⟨first, rfl, target_ids_fresh_iff reached (by decide) (.addCap 8)⟩

/-- Adding and releasing a target brings the counter to every id, by induction on the number
of rounds.
-/
theorem exists_reachable_counter (rounds : Nat)
    : ∃ runtime : RuntimeTargets Nat, (targetSystem Nat).Reachable runtime
        ∧ (∀ target, target ∉ runtime.targets)
        ∧ runtime.nextTargetId = UInt32.ofNat (rounds + 1) := by
  induction rounds with
  | zero => exact ⟨{}, .start rfl, fun target => AList.notMem_empty target, rfl⟩
  | succ rounds ih =>
      obtain ⟨runtime, reached, empty, counter⟩ := ih
      obtain ⟨added, adding⟩
          : ∃ added, addTarget runtime 7 = some (runtime.nextTargetId, added) :=
        ⟨_, addTarget_of_unused 7 (empty runtime.nextTargetId)⟩
      have add : (targetSystem Nat).step runtime (.addCap 7) added := by
        simp [targetSystem, Transition.System.ofFunction, TargetOp.run, adding]
      have release
          : (targetSystem Nat).step added (.release runtime.nextTargetId)
              (dropTargetIfPresent added runtime.nextTargetId).2 :=
        rfl
      obtain ⟨-, rfl⟩ := addTarget_spec adding
      refine ⟨_, (reached.next add).next release, ?_, ?_⟩
      · intro target member
        obtain ⟨other, member⟩ := AList.mem_erase.mp member
        rcases (AList.mem_insert _).mp member with same | member
        · exact other same
        · exact empty target member
      · show runtime.nextTargetId + 1 = _
        rw [counter, UInt32.ofNat_add (rounds + 1) 1]
        rfl

/-- After 2^32 - 1 targets that were all released again, the next one is given id 0. -/
theorem target_ids_wrap_to_null
    : ¬ ∀ runtime : RuntimeTargets Nat, (targetSystem Nat).Reachable runtime →
        runtime.targets.keys.length < 2 ^ 32 - 1 → ∀ op, AddsFresh runtime op := by
  intro always
  obtain ⟨runtime, reached, empty, counter⟩ := exists_reachable_counter (2 ^ 32 - 1)
  have none : runtime.targets.keys = [] :=
    List.eq_nil_iff_forall_not_mem.mpr
      (fun target member => empty target (AList.mem_keys.mpr member))
  obtain ⟨answer, after, ran, fresh, -⟩ :=
    always runtime reached (by rw [none]; decide) (.addCap 7)
  simp only [TargetOp.run, addTarget_of_unused 7 (empty runtime.nextTargetId), Option.map_some,
    Option.some.injEq, Prod.mk.injEq] at ran
  exact (fresh _ ran.1.symm).1 counter

end Capnp.Rpc
