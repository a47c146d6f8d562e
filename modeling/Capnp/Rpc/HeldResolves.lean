import Capnp.Rpc.PromiseCapability

/-! Holding promise-capability resolutions and flushing them against resolving at once.
The history of a run owes every held fulfil the capability its target denoted at the call;
the flush pays all of it while no operation drops a target that a held entry names.
-/

namespace Capnp.Rpc

variable {Cap : Type*}

-----------------------------------------------------------------------------------------
-- What a run owes
-----------------------------------------------------------------------------------------

/-- A runtime with the fulfils it accepted while holding and has not settled yet: the
fulfiller object and the capability that the target id denoted at the call.
-/
structure HeldHistory (Cap : Type*) where
  runtime : PromiseRuntime Cap := {}
  owed : List (Nat × Cap) := []

/-- A rejected or released fulfiller is owed nothing any more. -/
def HeldHistory.forgive (history : HeldHistory Cap) (fulfillerId : UInt32)
    : List (Nat × Cap) :=
  match history.runtime.promiseCapabilityFulfillers.lookup fulfillerId with
  | none => history.owed
  | some promise => history.owed.filter (fun entry => entry.1 ≠ promise.fulfiller)

/-- What is owed after an operation, given its answer and the state it left. -/
def HeldHistory.owedAfter (history : HeldHistory Cap) (after : PromiseRuntime Cap)
    : PromiseOp Cap → Except String PromiseAnswer → List (Nat × Cap)
  | .fulfill fulfillerId target, .ok _ =>
      if history.runtime.holdPromiseCapabilityResolves then
        match history.runtime.promiseCapabilityFulfillers.lookup fulfillerId,
          history.runtime.targets.targets.lookup target with
        | some promise, some cap => history.owed ++ [(promise.fulfiller, cap)]
        | _, _ => history.owed
      else history.owed
  | .reject fulfillerId _ _ _, _ => history.forgive fulfillerId
  | .release fulfillerId, _ => history.forgive fulfillerId
  | .flush, _ =>
      history.owed.filter (fun entry => !(after.resolutions.map Prod.fst).contains entry.1)
  | _, _ => history.owed

/-- Runs of promise-capability and target operations, with what they owe. -/
def heldSystem (Cap : Type*) : Transition.System (HeldHistory Cap) (PromiseOp Cap) :=
  .ofFunction {} (fun history op =>
    (op.run history.runtime).map (fun (answer, after) =>
      ⟨after, history.owedAfter after op answer⟩))

/-- No operation drops a target that a held entry names. -/
def PromiseOp.sparesHeld (history : HeldHistory Cap) : PromiseOp Cap → Prop
  | .onTargets op =>
      ∀ held ∈ history.runtime.heldPromiseCapabilityResolves, held.target ∉ op.dropped
  | _ => True

instance (history : HeldHistory Cap) (op : PromiseOp Cap)
    : Decidable (op.sparesHeld history) :=
  match op with
  | .onTargets op =>
      inferInstanceAs (Decidable
        (∀ held ∈ history.runtime.heldPromiseCapabilityResolves, held.target ∉ op.dropped))
  | .newPromise _ | .fulfill _ _ | .reject _ _ _ _ | .release _ | .setHold _ | .flush =>
      inferInstanceAs (Decidable True)

/-- Delivering the held entry would pass its checks and give the owed object the owed
capability.
-/
def Pays (runtime : PromiseRuntime Cap) (held : HeldPromiseCapabilityResolve)
    (entry : Nat × Cap)
    : Prop :=
  ∃ promise,
    checkFulfill runtime held.fulfillerId held.target = .ok (promise, entry.2)
    ∧ promise.fulfiller = entry.1

/-- What fulfiller objects get that are given their capabilities. -/
def payments (paid : List (Nat × Cap)) : List (Nat × Resolution Cap) :=
  paid.map (fun (fulfiller, cap) => (fulfiller, .fulfilled cap))

/-- The held set and the queue agree, no fulfiller object is resolved twice, and a flush
that throws takes only the entry it failed on: the entries before it are delivered, with the
capabilities that their targets denote, and those behind it stay.
-/
structure HeldHistory.HeldMatches (history : HeldHistory Cap) : Prop where
  heldIds
    : history.runtime.heldPromiseCapabilityFulfillerIds
      = (history.runtime.heldPromiseCapabilityResolves.map (·.fulfillerId)).toFinset
  distinct : (history.runtime.heldPromiseCapabilityResolves.map (·.fulfillerId)).Nodup
  once : (history.runtime.resolutions.map Prod.fst).Nodup
  othersKept
    : ∀ message, (flushHeldPromiseCapabilityResolves history.runtime).1 = .error message →
        ∃ delivered failed paid,
          history.runtime.heldPromiseCapabilityResolves
            = delivered ++ failed ::
                (flushHeldPromiseCapabilityResolves history.runtime).2.heldPromiseCapabilityResolves
          ∧ List.Forall₂ (Pays history.runtime) delivered paid
          ∧ (flushHeldPromiseCapabilityResolves history.runtime).2.resolutions
            = history.runtime.resolutions ++ payments paid
          ∧ checkFulfill history.runtime failed.fulfillerId failed.target = .error message

/-- A flush now would succeed and give every owed fulfiller its capability, in the order of
the fulfils, and nothing else.
-/
structure HeldHistory.RefinesImmediate (history : HeldHistory Cap) : Prop
    extends history.HeldMatches where
  flushed
    : (flushHeldPromiseCapabilityResolves history.runtime).1 = .ok history.owed.length
  delivered
    : (flushHeldPromiseCapabilityResolves history.runtime).2.resolutions
      = history.runtime.resolutions ++ payments history.owed
  emptied
    : (flushHeldPromiseCapabilityResolves history.runtime).2.heldPromiseCapabilityResolves = []

-----------------------------------------------------------------------------------------
-- The held queue and the fulfillers, in every run
-----------------------------------------------------------------------------------------

/-- Held entries have distinct pending fulfillers, and each fulfiller object ever created is
pending or resolved once.
-/
structure PromiseRuntime.Consistent (runtime : PromiseRuntime Cap) : Prop where
  heldIds
    : runtime.heldPromiseCapabilityFulfillerIds
      = (runtime.heldPromiseCapabilityResolves.map (·.fulfillerId)).toFinset
  distinct : (runtime.heldPromiseCapabilityResolves.map (·.fulfillerId)).Nodup
  pending
    : ∀ held ∈ runtime.heldPromiseCapabilityResolves,
        held.fulfillerId ∈ runtime.promiseCapabilityFulfillers
  accounted
    : ((Table.values runtime.promiseCapabilityFulfillers).map (·.fulfiller)
        ++ runtime.resolutions.map Prod.fst).Perm (List.range runtime.createdFulfillers)

/-- Nothing is held at first. -/
theorem PromiseRuntime.Consistent.initial
    : PromiseRuntime.Consistent ({} : PromiseRuntime Cap) where
  heldIds := rfl
  distinct := List.nodup_nil
  pending := by simp
  accounted := .refl []

/-- The held ids are those of the held resolves. -/
theorem PromiseRuntime.Consistent.mem_heldIds {runtime : PromiseRuntime Cap}
    (consistent : runtime.Consistent) {fulfillerId : UInt32}
    : fulfillerId ∈ runtime.heldPromiseCapabilityFulfillerIds
      ↔ ∃ held ∈ runtime.heldPromiseCapabilityResolves, held.fulfillerId = fulfillerId := by
  rw [consistent.heldIds, List.mem_toFinset, List.mem_map]

/-- Pending fulfillers with one object are one fulfiller. -/
theorem PromiseRuntime.Consistent.fulfiller_unique {runtime : PromiseRuntime Cap}
    (consistent : runtime.Consistent) {fulfillerId other : UInt32}
    {promise same : PendingPromiseCapability}
    (found : runtime.promiseCapabilityFulfillers.lookup fulfillerId = some promise)
    (also : runtime.promiseCapabilityFulfillers.lookup other = some same)
    (object : promise.fulfiller = same.fulfiller)
    : fulfillerId = other :=
  Table.key_eq_of_nodup
    (List.nodup_append.mp (consistent.accounted.nodup_iff.mpr List.nodup_range)).1
    found also object

/-- Resolving a fulfiller that is not held moves its object to the resolved ones. -/
theorem PromiseRuntime.Consistent.resolve {runtime : PromiseRuntime Cap}
    (consistent : runtime.Consistent) {fulfillerId : UInt32}
    {promise : PendingPromiseCapability}
    (found : runtime.promiseCapabilityFulfillers.lookup fulfillerId = some promise)
    (free : fulfillerId ∉ runtime.heldPromiseCapabilityFulfillerIds)
    (resolution : Resolution Cap)
    : (resolveFulfiller runtime fulfillerId promise resolution).Consistent := by
  refine {
    heldIds := consistent.heldIds
    distinct := consistent.distinct
    pending := ?_
    accounted := ?_
  }
  · intro held member
    refine AList.mem_erase.mpr ⟨?_, consistent.pending held member⟩
    rintro rfl
    exact free (consistent.mem_heldIds.mpr ⟨held, member, rfl⟩)
  · have split := (Table.values_perm_of_lookup found).map (·.fulfiller)
    simp only [resolveFulfiller, List.map_append, List.map_cons, List.map_nil] at split ⊢
    refine List.Perm.trans ?_ ((split.append_right _).symm.trans consistent.accounted)
    rw [← List.append_assoc]
    exact List.perm_append_singleton _ _

/-- In a queue without duplicates, erasing the first entry of an id erases all of them. -/
theorem eraseP_eq_filter {held : List HeldPromiseCapabilityResolve} {fulfillerId : UInt32}
    (distinct : (held.map (·.fulfillerId)).Nodup)
    : held.eraseP (fun entry => entry.fulfillerId = fulfillerId)
      = held.filter (fun entry => entry.fulfillerId ≠ fulfillerId) := by
  induction held with
  | nil => rfl
  | cons entry rest ih =>
      obtain ⟨fresh, distinct⟩ := List.nodup_cons.mp (List.map_cons ▸ distinct)
      rcases eq_or_ne entry.fulfillerId fulfillerId with rfl | same
      · have others : ∀ other ∈ rest, other.fulfillerId ≠ entry.fulfillerId :=
          fun other member eq => fresh (List.mem_map.mpr ⟨other, member, eq⟩)
        simpa using (List.filter_eq_self.mpr (by simpa using others)).symm
      · simpa [same] using ih distinct

/-- Dropping takes exactly the resolve of that id away. -/
theorem PromiseRuntime.Consistent.drop_held {runtime : PromiseRuntime Cap}
    (consistent : runtime.Consistent) (fulfillerId : UInt32)
    : (dropHeldPromiseCapabilityResolve runtime fulfillerId).heldPromiseCapabilityResolves
      = runtime.heldPromiseCapabilityResolves.filter
          (fun held => held.fulfillerId ≠ fulfillerId) := by
  unfold dropHeldPromiseCapabilityResolve
  split
  · exact eraseP_eq_filter consistent.distinct
  · rename_i free
    refine (List.filter_eq_self.mpr ?_).symm
    intro held member
    have different : held.fulfillerId ≠ fulfillerId :=
      fun same => free (consistent.mem_heldIds.mpr ⟨held, member, same⟩)
    simpa using different

/-- Dropping touches the held queue and the held set only. -/
theorem dropHeld_frame (runtime : PromiseRuntime Cap) (fulfillerId : UInt32)
    : (dropHeldPromiseCapabilityResolve runtime fulfillerId).promiseCapabilityFulfillers
        = runtime.promiseCapabilityFulfillers
      ∧ (dropHeldPromiseCapabilityResolve runtime fulfillerId).targets = runtime.targets
      ∧ (dropHeldPromiseCapabilityResolve runtime fulfillerId).resolutions
        = runtime.resolutions
      ∧ (dropHeldPromiseCapabilityResolve runtime fulfillerId).createdFulfillers
        = runtime.createdFulfillers
      ∧ (dropHeldPromiseCapabilityResolve runtime fulfillerId).heldPromiseCapabilityFulfillerIds
        = runtime.heldPromiseCapabilityFulfillerIds.erase fulfillerId := by
  unfold dropHeldPromiseCapabilityResolve
  split
  · exact ⟨rfl, rfl, rfl, rfl, rfl⟩
  · rename_i free
    exact ⟨rfl, rfl, rfl, rfl, (Finset.erase_eq_of_notMem free).symm⟩

/-- Dropping keeps the ids those of the resolves. -/
theorem PromiseRuntime.Consistent.drop {runtime : PromiseRuntime Cap}
    (consistent : runtime.Consistent) (fulfillerId : UInt32)
    : (dropHeldPromiseCapabilityResolve runtime fulfillerId).Consistent := by
  have queue := consistent.drop_held fulfillerId
  obtain ⟨fulfillers, _, resolutions, created, heldIds⟩ := dropHeld_frame runtime fulfillerId
  refine {
    heldIds := ?_
    distinct := ?_
    pending := ?_
    accounted := by rw [fulfillers, resolutions, created]; exact consistent.accounted
  }
  · rw [heldIds, queue, consistent.heldIds]
    ext other
    simp only [Finset.mem_erase, List.mem_toFinset, List.mem_map, List.mem_filter]
    constructor
    · rintro ⟨different, held, member, rfl⟩
      exact ⟨held, ⟨member, by simpa using different⟩, rfl⟩
    · rintro ⟨held, ⟨member, different⟩, rfl⟩
      exact ⟨by simpa using different, held, member, rfl⟩
  · rw [queue]
    exact consistent.distinct.sublist (List.filter_sublist.map _)
  · intro held member
    rw [queue] at member
    rw [fulfillers]
    exact consistent.pending held (List.mem_filter.mp member).1

/-- Popping the front entry is dropping its fulfiller. -/
theorem PromiseRuntime.Consistent.pop {runtime : PromiseRuntime Cap}
    (consistent : runtime.Consistent) {request : HeldPromiseCapabilityResolve}
    {rest : List HeldPromiseCapabilityResolve}
    (front : runtime.heldPromiseCapabilityResolves = request :: rest)
    : (popHeld runtime request rest).Consistent := by
  have held : request.fulfillerId ∈ runtime.heldPromiseCapabilityFulfillerIds :=
    consistent.mem_heldIds.mpr ⟨request, by simp [front], rfl⟩
  have popped : popHeld runtime request rest
      = dropHeldPromiseCapabilityResolve runtime request.fulfillerId := by
    simp [popHeld, dropHeldPromiseCapabilityResolve, held, front]
  exact popped ▸ consistent.drop request.fulfillerId

/-- A fulfillment is accepted for a live fulfiller and a live target. -/
theorem checkFulfill_eq_ok {runtime : PromiseRuntime Cap} {fulfillerId target : UInt32}
    {promise : PendingPromiseCapability} {cap : Cap}
    : checkFulfill runtime fulfillerId target = .ok (promise, cap)
      ↔ runtime.promiseCapabilityFulfillers.lookup fulfillerId = some promise
        ∧ target ≠ 0
        ∧ target ≠ promise.promiseTarget
        ∧ runtime.targets.targets.lookup target = some cap := by
  unfold checkFulfill
  cases found : runtime.promiseCapabilityFulfillers.lookup fulfillerId with
  | none => simp
  | some stored =>
      cases denoted : runtime.targets.targets.lookup target with
      | none =>
          dsimp only
          split_ifs <;> simp
      | some denotedCap =>
          dsimp only
          split_ifs with null itself
          · simp [null]
          · simp only [Option.some.injEq, false_iff]
            rintro ⟨rfl, _, different, _⟩
            exact different itself
          · simp only [Except.ok.injEq, Prod.mk.injEq, Option.some.injEq]
            constructor
            · rintro ⟨rfl, rfl⟩
              exact ⟨rfl, null, itself, rfl⟩
            · rintro ⟨rfl, _, _, rfl⟩
              exact ⟨rfl, rfl⟩

/-- Fulfilling at once keeps a consistent runtime consistent, whether it throws or not. -/
theorem PromiseRuntime.Consistent.fulfillNow {runtime : PromiseRuntime Cap}
    (consistent : runtime.Consistent) {fulfillerId : UInt32} (target : UInt32)
    (free : fulfillerId ∉ runtime.heldPromiseCapabilityFulfillerIds)
    : (promiseCapabilityFulfillNow runtime fulfillerId target).2.Consistent := by
  unfold promiseCapabilityFulfillNow
  cases checked : checkFulfill runtime fulfillerId target with
  | error message => exact consistent
  | ok result => exact consistent.resolve (checkFulfill_eq_ok.mp checked).1 free _

/-- Fulfilling at once holds nothing back. -/
theorem fulfillNow_held (runtime : PromiseRuntime Cap) (fulfillerId target : UInt32)
    : (promiseCapabilityFulfillNow runtime fulfillerId target).2.heldPromiseCapabilityResolves
      = runtime.heldPromiseCapabilityResolves := by
  unfold promiseCapabilityFulfillNow
  cases checkFulfill runtime fulfillerId target <;> rfl

/-- What popping and delivering the front entry preserves, the flush preserves, by
induction on the queue.
-/
theorem flushHeld_preserves (holds : PromiseRuntime Cap → Prop)
    (preserved
      : ∀ {runtime request rest}, runtime.heldPromiseCapabilityResolves = request :: rest →
          holds runtime →
          holds (promiseCapabilityFulfillNow (popHeld runtime request rest)
            request.fulfillerId request.target).2)
    {runtime : PromiseRuntime Cap} {queue : List HeldPromiseCapabilityResolve}
    (queued : runtime.heldPromiseCapabilityResolves = queue) (flushed : Nat)
    (start : holds runtime)
    : holds (flushHeld runtime flushed queue).2 := by
  induction queue generalizing runtime flushed with
  | nil => exact start
  | cons request rest ih =>
      have delivered := preserved queued start
      have left := fulfillNow_held (popHeld runtime request rest) request.fulfillerId request.target
      unfold flushHeld
      dsimp only
      split <;> rename_i answer after eq <;> rw [eq] at delivered left
      · exact delivered
      · exact ih left (flushed + 1) delivered

/-- Flushing keeps the ids those of the resolves. -/
theorem PromiseRuntime.Consistent.flush {runtime : PromiseRuntime Cap}
    (consistent : runtime.Consistent)
    : (flushHeldPromiseCapabilityResolves runtime).2.Consistent := by
  refine flushHeld_preserves PromiseRuntime.Consistent ?_ rfl 0 consistent
  intro before request rest front consistent
  exact (consistent.pop front).fulfillNow request.target (by simp [popHeld])

/-- Whether other entries pass their checks does not depend on a fulfiller that is resolved. -/
theorem checkFulfill_resolve (runtime : PromiseRuntime Cap) {fulfillerId other : UInt32}
    (different : other ≠ fulfillerId) (promise : PendingPromiseCapability)
    (resolution : Resolution Cap) (target : UInt32)
    : checkFulfill (resolveFulfiller runtime fulfillerId promise resolution) other target
      = checkFulfill runtime other target := by
  have same
      : (runtime.promiseCapabilityFulfillers.erase fulfillerId).lookup other
        = runtime.promiseCapabilityFulfillers.lookup other :=
    AList.lookup_erase_ne different
  simp only [checkFulfill, resolveFulfiller, same]

/-- The delivery of an entry that pays: the flush goes on with the rest. -/
theorem flushHeld_cons {runtime : PromiseRuntime Cap} {request : HeldPromiseCapabilityResolve}
    {entry : Nat × Cap} (pays : Pays runtime request entry)
    (rest : List HeldPromiseCapabilityResolve) (flushed : Nat)
    : ∃ after : PromiseRuntime Cap,
        flushHeld runtime flushed (request :: rest) = flushHeld after (flushed + 1) rest
        ∧ after.heldPromiseCapabilityResolves = rest
        ∧ after.resolutions = runtime.resolutions ++ payments [entry]
        ∧ ∀ other, other ≠ request.fulfillerId →
            ∀ target, checkFulfill after other target = checkFulfill runtime other target := by
  obtain ⟨promise, checked, object⟩ := pays
  have sameCheck : checkFulfill (popHeld runtime request rest) request.fulfillerId request.target
      = .ok (promise, entry.2) := checked
  refine ⟨resolveFulfiller (popHeld runtime request rest) request.fulfillerId promise
    (.fulfilled entry.2), ?_, rfl, ?_, fun other different target => ?_⟩
  · simp only [flushHeld, promiseCapabilityFulfillNow, sameCheck]
  · simp [resolveFulfiller, popHeld, payments, object]
  · exact checkFulfill_resolve (popHeld runtime request rest) different promise _ target

/-- A flush that throws has delivered the entries before the one it failed on and leaves those
behind it, by induction on the queue.
-/
theorem flushHeld_error {runtime : PromiseRuntime Cap}
    {queue : List HeldPromiseCapabilityResolve}
    (queued : runtime.heldPromiseCapabilityResolves = queue)
    (distinct : (queue.map (·.fulfillerId)).Nodup) {flushed : Nat} {message : String}
    (failed : (flushHeld runtime flushed queue).1 = .error message)
    : ∃ delivered request paid,
        queue
          = delivered ++ request ::
              (flushHeld runtime flushed queue).2.heldPromiseCapabilityResolves
        ∧ List.Forall₂ (Pays runtime) delivered paid
        ∧ (flushHeld runtime flushed queue).2.resolutions = runtime.resolutions ++ payments paid
        ∧ checkFulfill runtime request.fulfillerId request.target = .error message := by
  induction queue generalizing runtime flushed with
  | nil => simp [flushHeld] at failed
  | cons request rest ih =>
      cases checked : checkFulfill runtime request.fulfillerId request.target with
      | error reason =>
          have sameCheck
              : checkFulfill (popHeld runtime request rest) request.fulfillerId request.target
                = .error reason := checked
          simp only [flushHeld, promiseCapabilityFulfillNow, sameCheck] at failed ⊢
          obtain rfl := Except.error.inj failed
          exact ⟨[], request, [], rfl, .nil, (List.append_nil _).symm, checked⟩
      | ok result =>
          obtain ⟨fresh, distinct⟩ := List.nodup_cons.mp (List.map_cons ▸ distinct)
          have pays : Pays runtime request (result.1.fulfiller, result.2) :=
            ⟨result.1, checked, rfl⟩
          obtain ⟨after, step, left, resolutions, others⟩ := flushHeld_cons pays rest flushed
          rw [step] at failed ⊢
          obtain ⟨delivered, lost, paid, split, pay, given, throws⟩ := ih left distinct failed
          have apart (held : HeldPromiseCapabilityResolve) (member : held ∈ rest)
              : held.fulfillerId ≠ request.fulfillerId :=
            fun same => fresh (List.mem_map.mpr ⟨held, member, same⟩)
          refine ⟨request :: delivered, lost, _ :: paid, by rw [List.cons_append, ← split],
            .cons pays ?_, ?_, ?_⟩
          · have both := (List.forall₂_and_left _ _).mpr
              ⟨fun held member => apart held (split ▸ List.mem_append_left _ member), pay⟩
            refine both.imp (fun held entry both => ?_)
            rw [Pays, ← others held.fulfillerId both.1]
            exact both.2
          · rw [given, resolutions, List.append_assoc]
            rfl
          · have member : lost ∈ rest :=
              split ▸ List.mem_append_right _ List.mem_cons_self
            rw [← others lost.fulfillerId (apart lost member)]
            exact throws

/-- Holding a fulfil that passes the checks. -/
theorem PromiseRuntime.Consistent.hold {runtime : PromiseRuntime Cap}
    (consistent : runtime.Consistent) {fulfillerId target : UInt32}
    (free : fulfillerId ∉ runtime.heldPromiseCapabilityFulfillerIds)
    (present : fulfillerId ∈ runtime.promiseCapabilityFulfillers)
    : PromiseRuntime.Consistent
        { runtime with
          heldPromiseCapabilityResolves :=
            runtime.heldPromiseCapabilityResolves ++ [⟨fulfillerId, target⟩]
          heldPromiseCapabilityFulfillerIds :=
            insert fulfillerId runtime.heldPromiseCapabilityFulfillerIds } := by
  refine {
    heldIds := ?_
    distinct := ?_
    pending := ?_
    accounted := consistent.accounted
  }
  · ext other
    simp only [consistent.heldIds, Finset.mem_insert, List.mem_toFinset, List.map_append,
      List.map_cons, List.map_nil, List.mem_append, List.mem_singleton]
    exact or_comm
  · rw [consistent.heldIds, List.mem_toFinset] at free
    rw [List.map_append]
    exact consistent.distinct.append (List.nodup_singleton _)
      (fun other member single => by
        have same : other = fulfillerId := List.mem_singleton.mp single
        exact free (same ▸ member))
  · intro held member
    rcases List.mem_append.mp member with old | new
    · exact consistent.pending held old
    · rw [List.mem_singleton.mp new]
      exact present

/-- So does fulfilling, at once or held back. -/
theorem PromiseRuntime.Consistent.fulfill {runtime : PromiseRuntime Cap}
    (consistent : runtime.Consistent) (fulfillerId target : UInt32)
    : (promiseCapabilityFulfill runtime fulfillerId target).2.Consistent := by
  unfold promiseCapabilityFulfill
  split
  · exact consistent
  · rename_i free
    split
    · exact consistent.fulfillNow target free
    · cases checked : checkFulfill runtime fulfillerId target with
      | error message => exact consistent
      | ok result =>
          have found := (checkFulfill_eq_ok.mp checked).1
          exact consistent.hold free (AList.lookup_isSome.mp (by simp [found]))

/-- A dropped id is held no longer. -/
theorem PromiseRuntime.Consistent.not_held_after_drop {runtime : PromiseRuntime Cap}
    (fulfillerId : UInt32)
    : fulfillerId
      ∉ (dropHeldPromiseCapabilityResolve runtime
          fulfillerId).heldPromiseCapabilityFulfillerIds := by
  rw [(dropHeld_frame runtime fulfillerId).2.2.2.2]
  exact Finset.notMem_erase _ _

/-- A new fulfiller id is unused and its object is new. -/
theorem addFulfiller_spec {runtime after : PromiseRuntime Cap}
    {promiseTarget fulfillerId : UInt32}
    (added : addPromiseCapabilityFulfiller runtime promiseTarget = some (fulfillerId, after))
    : fulfillerId ∉ runtime.promiseCapabilityFulfillers
      ∧ after
        = { runtime with
            promiseCapabilityFulfillers :=
              runtime.promiseCapabilityFulfillers.insert fulfillerId
                ⟨runtime.createdFulfillers, promiseTarget⟩
            nextPromiseCapabilityFulfillerId := fulfillerId + 1
            createdFulfillers := runtime.createdFulfillers + 1 } := by
  obtain ⟨⟨foundId, counter⟩, found, eq⟩ := Option.map_eq_some_iff.mp added
  obtain ⟨fresh, rfl⟩ := allocateId_spec found
  obtain ⟨rfl, rfl⟩ := Prod.mk.inj eq
  exact ⟨fresh, rfl⟩

/-- A new promise holds nothing back. -/
theorem PromiseRuntime.Consistent.addFulfiller {runtime after : PromiseRuntime Cap}
    (consistent : runtime.Consistent) {promiseTarget fulfillerId : UInt32}
    (added : addPromiseCapabilityFulfiller runtime promiseTarget = some (fulfillerId, after))
    : after.Consistent := by
  obtain ⟨fresh, rfl⟩ := addFulfiller_spec added
  refine {
    heldIds := consistent.heldIds
    distinct := consistent.distinct
    pending := fun held member =>
      (AList.mem_insert _).mpr (.inr (consistent.pending held member))
    accounted := ?_
  }
  simp only [Table.values_insert_fresh fresh, List.map_cons, List.cons_append,
    List.range_succ]
  exact (consistent.accounted.cons _).trans (List.perm_append_singleton _ _).symm

/-- What happens to targets does not touch the held resolves. -/
theorem PromiseRuntime.Consistent.onTargets {runtime : PromiseRuntime Cap}
    (consistent : runtime.Consistent) (targets : RuntimeTargets Cap)
    : PromiseRuntime.Consistent { runtime with targets := targets } :=
  { consistent with }

/-- Every operation keeps the runtime consistent, whatever it answers. -/
theorem PromiseRuntime.Consistent.run {runtime after : PromiseRuntime Cap}
    (consistent : runtime.Consistent) {op : PromiseOp Cap}
    {answer : Except String PromiseAnswer} (ran : op.run runtime = some (answer, after))
    : after.Consistent := by
  cases op with
  | newPromise promise =>
      obtain ⟨⟨ids, created⟩, creating, eq⟩ := Option.map_eq_some_iff.mp ran
      obtain ⟨_, rfl⟩ := Prod.mk.inj eq
      obtain ⟨⟨targetId, targets⟩, _, adding⟩ := Option.bind_eq_some_iff.mp creating
      obtain ⟨⟨fulfillerId, added⟩, registered, eq⟩ := Option.map_eq_some_iff.mp adding
      obtain ⟨_, rfl⟩ := Prod.mk.inj eq
      exact (consistent.onTargets targets).addFulfiller registered
  | fulfill fulfillerId target =>
      obtain ⟨_, rfl⟩ := Prod.mk.inj (Option.some.inj ran)
      exact consistent.fulfill fulfillerId target
  | reject fulfillerId exceptionTypeTag message detailBytes =>
      obtain ⟨_, rfl⟩ := Prod.mk.inj (Option.some.inj ran)
      have dropped := consistent.drop fulfillerId
      dsimp only [promiseCapabilityReject]
      split
      · exact dropped
      · exact dropped.resolve ‹_› (not_held_after_drop fulfillerId) _
  | release fulfillerId =>
      obtain ⟨_, rfl⟩ := Prod.mk.inj (Option.some.inj ran)
      have dropped := consistent.drop fulfillerId
      dsimp only [promiseCapabilityRelease]
      split
      · exact dropped
      · exact dropped.resolve ‹_› (not_held_after_drop fulfillerId) _
  | setHold enabled =>
      obtain ⟨_, rfl⟩ := Prod.mk.inj (Option.some.inj ran)
      exact { consistent with }
  | flush =>
      obtain ⟨_, rfl⟩ := Prod.mk.inj (Option.some.inj ran)
      exact consistent.flush
  | onTargets op =>
      obtain ⟨⟨answer, targets⟩, _, eq⟩ := Option.map_eq_some_iff.mp ran
      obtain ⟨_, rfl⟩ := Prod.mk.inj eq
      exact consistent.onTargets targets

/-- Every reachable runtime is consistent, by induction over the run. -/
theorem heldSystem_consistent {history : HeldHistory Cap}
    (reached : (heldSystem Cap).Reachable history)
    : history.runtime.Consistent := by
  refine reached.invariant (fun state => state.runtime.Consistent) ?_ ?_
  · rintro first rfl
    exact .initial
  · intro before op after step consistent
    obtain ⟨⟨answer, left⟩, ran, rfl⟩ := Option.map_eq_some_iff.mp step
    exact consistent.run ran

/-- Consistent states hold what they should. -/
theorem PromiseRuntime.Consistent.heldMatches {history : HeldHistory Cap}
    (consistent : history.runtime.Consistent)
    : history.HeldMatches where
  heldIds := consistent.heldIds
  distinct := consistent.distinct
  once := (List.nodup_append.mp (consistent.accounted.nodup_iff.mpr List.nodup_range)).2.1
  othersKept := fun _ failed => flushHeld_error rfl consistent.distinct failed

-----------------------------------------------------------------------------------------
-- The flush pays what is owed
-----------------------------------------------------------------------------------------

/-- An entry still pays when its fulfiller and its target are looked up unchanged. -/
theorem Pays.transfer {runtime after : PromiseRuntime Cap}
    {held : HeldPromiseCapabilityResolve} {entry : Nat × Cap} (pays : Pays runtime held entry)
    (fulfiller
      : ∀ promise,
          runtime.promiseCapabilityFulfillers.lookup held.fulfillerId = some promise →
          after.promiseCapabilityFulfillers.lookup held.fulfillerId = some promise)
    (target
      : ∀ cap, runtime.targets.targets.lookup held.target = some cap →
          after.targets.targets.lookup held.target = some cap)
    : Pays after held entry := by
  obtain ⟨promise, checked, object⟩ := pays
  obtain ⟨found, null, itself, denoted⟩ := checkFulfill_eq_ok.mp checked
  exact ⟨promise,
    checkFulfill_eq_ok.mpr ⟨fulfiller promise found, null, itself, target _ denoted⟩, object⟩

/-- Resolving a fulfiller leaves the entries of the others payable. -/
theorem Pays.resolve {runtime : PromiseRuntime Cap} {held : HeldPromiseCapabilityResolve}
    {entry : Nat × Cap} (pays : Pays runtime held entry) {fulfillerId : UInt32}
    (different : held.fulfillerId ≠ fulfillerId) (promise : PendingPromiseCapability)
    (resolution : Resolution Cap)
    : Pays (resolveFulfiller runtime fulfillerId promise resolution) held entry :=
  pays.transfer (fun _ found => (AList.lookup_erase_ne different).trans found)
    (fun _ denoted => denoted)

/-- A flush over entries that all pay delivers them in order, by induction on the queue. -/
theorem flushHeld_pays {runtime : PromiseRuntime Cap}
    {queue : List HeldPromiseCapabilityResolve} {owed : List (Nat × Cap)}
    (queued : runtime.heldPromiseCapabilityResolves = queue)
    (distinct : (queue.map (·.fulfillerId)).Nodup)
    (pays : List.Forall₂ (Pays runtime) queue owed) (flushed : Nat)
    : (flushHeld runtime flushed queue).1 = .ok (flushed + owed.length)
      ∧ (flushHeld runtime flushed queue).2.resolutions = runtime.resolutions ++ payments owed
      ∧ (flushHeld runtime flushed queue).2.heldPromiseCapabilityResolves = [] := by
  induction queue generalizing runtime owed flushed with
  | nil =>
      cases pays
      simp [flushHeld, queued, payments]
  | cons request rest ih =>
      obtain ⟨entry, owed, first, others, rfl⟩ := List.forall₂_cons_left_iff.mp pays
      obtain ⟨fresh, distinct⟩ := List.nodup_cons.mp (List.map_cons ▸ distinct)
      obtain ⟨after, step, left, resolutions, same⟩ := flushHeld_cons first rest flushed
      have stillPays : List.Forall₂ (Pays after) rest owed := by
        have others := (List.forall₂_and_left _ _).mpr
          ⟨fun held member => fun same => fresh (List.mem_map.mpr ⟨held, member, same⟩), others⟩
        refine others.imp (fun held paid both => ?_)
        rw [Pays, same held.fulfillerId both.1]
        exact both.2
      obtain ⟨answer, given, emptied⟩ := ih left distinct stillPays (flushed + 1)
      rw [step]
      refine ⟨?_, ?_, emptied⟩
      · rw [answer, List.length_cons]
        congr 1
        omega
      · rw [given, resolutions, List.append_assoc]
        rfl

/-- A run's state: a consistent runtime whose held entries pay what is owed, one by one. -/
structure HeldHistory.Settles (history : HeldHistory Cap) : Prop where
  consistent : history.runtime.Consistent
  pays
    : List.Forall₂ (Pays history.runtime) history.runtime.heldPromiseCapabilityResolves
        history.owed

/-- Dropping a pending fulfiller's held entry forgives exactly what it is owed. -/
theorem HeldHistory.Settles.drop {history : HeldHistory Cap} (settles : history.Settles)
    {fulfillerId : UInt32} {promise : PendingPromiseCapability}
    (found
      : history.runtime.promiseCapabilityFulfillers.lookup fulfillerId = some promise)
    (resolution : Resolution Cap)
    : List.Forall₂
        (Pays (resolveFulfiller (dropHeldPromiseCapabilityResolve history.runtime fulfillerId)
          fulfillerId promise resolution))
        (dropHeldPromiseCapabilityResolve history.runtime fulfillerId).heldPromiseCapabilityResolves
        (history.forgive fulfillerId) := by
  obtain ⟨fulfillers, targets, _⟩ := dropHeld_frame history.runtime fulfillerId
  rw [settles.consistent.drop_held fulfillerId]
  simp only [forgive, found]
  have kept : List.Forall₂ (Pays history.runtime)
      (history.runtime.heldPromiseCapabilityResolves.filter
        (fun held => held.fulfillerId ≠ fulfillerId))
      (history.owed.filter (fun entry => entry.1 ≠ promise.fulfiller)) := by
    refine List.rel_filter ?_ settles.pays
    intro held entry pays
    obtain ⟨stored, checked, object⟩ := pays
    have lookup := (checkFulfill_eq_ok.mp checked).1
    simp only [decide_eq_true_eq, ne_eq, not_iff_not]
    constructor
    · rintro rfl
      rw [← object, Option.some.inj (lookup.symm.trans found)]
    · intro same
      exact settles.consistent.fulfiller_unique lookup found (object.trans same)
  have others := (List.forall₂_and_left _ _).mpr
    ⟨fun held member => (List.mem_filter.mp member).2, kept⟩
  refine others.imp (fun held entry both => ?_)
  have different : held.fulfillerId ≠ fulfillerId := by simpa using both.1
  refine Pays.resolve ?_ different promise resolution
  exact both.2.transfer (fun _ found => fulfillers ▸ found) (fun _ denoted => targets ▸ denoted)

/-- A fulfiller that is not pending has no held entry to drop. -/
theorem HeldHistory.Settles.drop_unknown {history : HeldHistory Cap}
    (settles : history.Settles) {fulfillerId : UInt32}
    (missing : history.runtime.promiseCapabilityFulfillers.lookup fulfillerId = none)
    : dropHeldPromiseCapabilityResolve history.runtime fulfillerId = history.runtime := by
  have free : fulfillerId ∉ history.runtime.heldPromiseCapabilityFulfillerIds := by
    intro held
    obtain ⟨entry, member, rfl⟩ := settles.consistent.mem_heldIds.mp held
    exact AList.lookup_eq_none.mp missing (settles.consistent.pending entry member)
  simp only [dropHeldPromiseCapabilityResolve, free, if_false]

/-- A fulfillment is paid, or held with a payment owed. -/
theorem HeldHistory.Settles.fulfill {history : HeldHistory Cap} (settles : history.Settles)
    (fulfillerId target : UInt32)
    : List.Forall₂ (Pays (promiseCapabilityFulfill history.runtime fulfillerId target).2)
        (promiseCapabilityFulfill history.runtime fulfillerId
          target).2.heldPromiseCapabilityResolves
        (history.owedAfter (promiseCapabilityFulfill history.runtime fulfillerId target).2
          (.fulfill fulfillerId target)
          ((promiseCapabilityFulfill history.runtime fulfillerId target).1.map
            (fun _ => .unit))) := by
  unfold promiseCapabilityFulfill
  by_cases held : fulfillerId ∈ history.runtime.heldPromiseCapabilityFulfillerIds
  · simpa only [held, if_true, Except.map, owedAfter] using settles.pays
  cases checked : checkFulfill history.runtime fulfillerId target with
  | error message =>
      cases holding : history.runtime.holdPromiseCapabilityResolves <;>
        simpa [held, checked, promiseCapabilityFulfillNow, Except.map, owedAfter] using settles.pays
  | ok result =>
      obtain ⟨promise, cap⟩ := result
      obtain ⟨found, null, itself, denoted⟩ := checkFulfill_eq_ok.mp checked
      cases holding : history.runtime.holdPromiseCapabilityResolves with
      | false =>
          simp only [held, if_false, Bool.not_false, if_true, promiseCapabilityFulfillNow, checked,
            Except.map, owedAfter, holding, Bool.false_eq_true]
          have others := (List.forall₂_and_left _ _).mpr
            ⟨fun entry member => fun same =>
              held (settles.consistent.mem_heldIds.mpr ⟨entry, member, same⟩), settles.pays⟩
          exact others.imp (fun entry paid both => both.2.resolve both.1 promise (.fulfilled cap))
      | true =>
          simp only [held, if_false, Bool.not_true, Bool.false_eq_true, Except.map, owedAfter,
            holding, if_true, found, denoted]
          refine List.rel_append (settles.pays.imp (fun _ _ pays => pays)) ?_
          exact .cons ⟨promise, checked, rfl⟩ .nil

/-- A flush pays everything that is owed. -/
theorem HeldHistory.Settles.flush {history : HeldHistory Cap} (settles : history.Settles)
    (answer : Except String PromiseAnswer)
    : (flushHeldPromiseCapabilityResolves history.runtime).2.heldPromiseCapabilityResolves = []
      ∧ history.owedAfter (flushHeldPromiseCapabilityResolves history.runtime).2 .flush answer
        = [] := by
  obtain ⟨_, resolutions, emptied⟩ := flushHeld_pays rfl settles.consistent.distinct settles.pays 0
  refine ⟨emptied, ?_⟩
  refine List.filter_eq_nil_iff.mpr (fun entry member => ?_)
  have resolved : entry.1
      ∈ (flushHeldPromiseCapabilityResolves history.runtime).2.resolutions.map Prod.fst := by
    rw [flushHeldPromiseCapabilityResolves, resolutions, List.map_append, payments,
      List.map_map]
    exact List.mem_append_right _ (List.mem_map.mpr ⟨entry, member, rfl⟩)
  simpa using resolved

/-- Every operation that spares the held targets keeps a settled history settled. -/
theorem HeldHistory.Settles.run {history : HeldHistory Cap} (settles : history.Settles)
    {op : PromiseOp Cap} (spares : op.sparesHeld history)
    {after : PromiseRuntime Cap} {answer : Except String PromiseAnswer}
    (ran : op.run history.runtime = some (answer, after))
    : HeldHistory.Settles ⟨after, history.owedAfter after op answer⟩ := by
  refine ⟨settles.consistent.run ran, ?_⟩
  cases op with
  | newPromise promise =>
      obtain ⟨⟨ids, created⟩, creating, eq⟩ := Option.map_eq_some_iff.mp ran
      obtain ⟨_, rfl⟩ := Prod.mk.inj eq
      obtain ⟨⟨targetId, targets⟩, adding, registering⟩ := Option.bind_eq_some_iff.mp creating
      obtain ⟨⟨fulfillerId, added⟩, registered, eq⟩ := Option.map_eq_some_iff.mp registering
      obtain ⟨_, rfl⟩ := Prod.mk.inj eq
      obtain ⟨fresh, rfl⟩ := addFulfiller_spec registered
      refine settles.pays.imp (fun held entry pays => pays.transfer ?_ ?_)
      · intro stored found
        have different : held.fulfillerId ≠ fulfillerId := by
          rintro rfl
          exact fresh (AList.lookup_isSome.mp (by simp [found]))
        exact (AList.lookup_insert_ne different).trans found
      · exact fun cap denoted => lookup_addTarget adding denoted
  | fulfill fulfillerId target =>
      obtain ⟨rfl, rfl⟩ := Prod.mk.inj (Option.some.inj ran)
      exact settles.fulfill fulfillerId target
  | reject fulfillerId exceptionTypeTag message detailBytes =>
      obtain ⟨_, rfl⟩ := Prod.mk.inj (Option.some.inj ran)
      have fulfillers := (dropHeld_frame history.runtime fulfillerId).1
      dsimp only [promiseCapabilityReject, owedAfter]
      rw [fulfillers]
      cases found : history.runtime.promiseCapabilityFulfillers.lookup fulfillerId with
      | none => simpa only [forgive, found, settles.drop_unknown found] using settles.pays
      | some promise => exact settles.drop found _
  | release fulfillerId =>
      obtain ⟨_, rfl⟩ := Prod.mk.inj (Option.some.inj ran)
      have fulfillers := (dropHeld_frame history.runtime fulfillerId).1
      dsimp only [promiseCapabilityRelease, owedAfter]
      rw [fulfillers]
      cases found : history.runtime.promiseCapabilityFulfillers.lookup fulfillerId with
      | none => simpa only [forgive, found, settles.drop_unknown found] using settles.pays
      | some promise => exact settles.drop found _
  | setHold enabled =>
      obtain ⟨_, rfl⟩ := Prod.mk.inj (Option.some.inj ran)
      exact settles.pays.imp (fun held entry pays => pays.transfer (fun _ => id) (fun _ => id))
  | flush =>
      obtain ⟨_, rfl⟩ := Prod.mk.inj (Option.some.inj ran)
      obtain ⟨emptied, paid⟩ := settles.flush answer
      show List.Forall₂ _
        (flushHeldPromiseCapabilityResolves history.runtime).2.heldPromiseCapabilityResolves
        (history.owedAfter (flushHeldPromiseCapabilityResolves history.runtime).2 .flush answer)
      rw [emptied, paid]
      exact .nil
  | onTargets op =>
      obtain ⟨⟨answer, targets⟩, acting, eq⟩ := Option.map_eq_some_iff.mp ran
      obtain ⟨_, rfl⟩ := Prod.mk.inj eq
      have effect := TargetOp.run_effect acting
      have others := (List.forall₂_and_left _ _).mpr ⟨spares, settles.pays⟩
      refine others.imp (fun held entry both => both.2.transfer (fun _ => id) ?_)
      exact fun cap denoted => effect.keeps both.1 denoted

/-- In every run the held set and the queue agree and a failing flush loses only the entry
it failed on; while no held target is dropped, the flush pays every held fulfil.
-/
theorem flush_pays_held_resolves
    : (∀ history : HeldHistory Cap, (heldSystem Cap).Reachable history → history.HeldMatches)
      ∧ (∀ history : HeldHistory Cap,
          ((heldSystem Cap).guard (fun history op => op.sparesHeld history)).Reachable history →
          history.RefinesImmediate) := by
  refine ⟨fun history reached => (heldSystem_consistent reached).heldMatches, ?_⟩
  intro history reached
  have settles : history.Settles := by
    refine reached.invariant HeldHistory.Settles ?_ ?_
    · rintro first rfl
      exact ⟨.initial, .nil⟩
    · rintro before op after ⟨spares, step⟩ settles
      obtain ⟨⟨answer, left⟩, ran, rfl⟩ := Option.map_eq_some_iff.mp step
      exact settles.run spares ran
  obtain ⟨flushed, delivered, emptied⟩ :=
    flushHeld_pays rfl settles.consistent.distinct settles.pays 0
  exact {
    toHeldMatches := settles.consistent.heldMatches
    flushed := by rw [flushHeldPromiseCapabilityResolves, flushed, Nat.zero_add]
    delivered := delivered
    emptied := emptied
  }

/-- Two promises are fulfilled while held, one of them with the other's promise target, an
unrelated target is released, and the flush pays both in order.
-/
theorem flush_pays_held_resolves_two
    : ∃ history : HeldHistory Nat,
        (flushHeldPromiseCapabilityResolves history.runtime).2.resolutions
          = [(0, .fulfilled 30), (1, .fulfilled 10)]
        ∧ history.RefinesImmediate := by
  let operations : List (PromiseOp Nat) :=
    [.newPromise 10, .newPromise 20, .onTargets (.addCap 30), .onTargets (.retain 3),
      .setHold true, .fulfill 1 3, .fulfill 2 1, .onTargets (.release 4)]
  let checks (history : HeldHistory Nat) : Bool :=
    decide ((flushHeldPromiseCapabilityResolves history.runtime).2.resolutions
      = [(0, .fulfilled 30), (1, .fulfilled 10)])
  have replayed : ∃ history,
      ((heldSystem Nat).guard (fun history op => op.sparesHeld history)).Reachable history
      ∧ checks history = true :=
    Transition.exists_guarded_of_replay _ operations checks (by decide)
  obtain ⟨history, reached, checked⟩ := replayed
  exact ⟨history, of_decide_eq_true checked, flush_pays_held_resolves.2 history reached⟩

/-- A target released between the held fulfil and the flush loses the held resolve. -/
theorem released_target_loses_held_resolve
    : ∃ history : HeldHistory Nat,
        (heldSystem Nat).Reachable history ∧ ¬ history.RefinesImmediate := by
  let operations : List (PromiseOp Nat) :=
    [.newPromise 10, .onTargets (.addCap 30), .setHold true, .fulfill 1 2,
      .onTargets (.release 2)]
  let checks (history : HeldHistory Nat) : Bool :=
    decide (history.owed = [(0, 30)]
      ∧ (flushHeldPromiseCapabilityResolves history.runtime).2.resolutions = [])
  have replayed : ∃ history, (heldSystem Nat).Reachable history ∧ checks history = true :=
    Transition.exists_reachable_of_replay operations checks (by decide)
  obtain ⟨history, reached, checked⟩ := replayed
  obtain ⟨owed, unpaid⟩ := of_decide_eq_true checked
  refine ⟨history, reached, fun refines => ?_⟩
  have delivered := refines.delivered
  rw [owed, unpaid] at delivered
  simp [payments] at delivered

end Capnp.Rpc
