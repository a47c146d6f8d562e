import Capnp.Rpc.Targets

/-! Peers owned by targets live exactly as long as their targets.
The ownership invariant is stated for one ownership structure, preserved by adopting,
retaining and releasing, and then carried through every target operation while ids are
not reused.
-/

namespace Capnp.Rpc

open RefCount

-----------------------------------------------------------------------------------------
-- One ownership structure
-----------------------------------------------------------------------------------------

/-- Balanced counts, a peer under exactly the owned ids, and each peer object ever created
either in the map or destroyed once. No id above `allocated` occurs.
-/
structure PeerOwnership.Consistent (own : PeerOwnership) (allocated : Nat) : Prop where
  balanced : Balanced own.ownerByTarget own.ownerRefCounts
  peers : ∀ owner, owner ∈ own.peers ↔ 0 < Table.countValue own.ownerByTarget owner
  accounted : (own.peers.values ++ own.destroyed).Perm (List.range own.created)
  holders : ∀ target ∈ own.ownerByTarget, target.toNat ≤ allocated
  owners
    : ∀ target owner, own.ownerByTarget.lookup target = some owner → owner.toNat ≤ allocated

/-- Without targets there are no owners. -/
theorem PeerOwnership.Consistent.empty (allocated : Nat)
    : PeerOwnership.Consistent {} allocated where
  balanced := balanced_empty
  peers := by simp
  accounted := .refl []
  holders := by simp
  owners := by simp

/-- The bound on the ids may grow. -/
theorem PeerOwnership.Consistent.mono {own : PeerOwnership} {low high : Nat}
    (consistent : own.Consistent low) (le : low ≤ high)
    : own.Consistent high :=
  { consistent with
    holders := fun target member => (consistent.holders target member).trans le
    owners := fun target owner found => (consistent.owners target owner found).trans le }

/-- An id above the bound holds nothing and owns nothing. -/
theorem PeerOwnership.Consistent.fresh {own : PeerOwnership} {allocated : Nat}
    (consistent : own.Consistent allocated) (target : UInt32)
    (above : allocated < target.toNat)
    : target ∉ own.ownerByTarget
      ∧ Table.countValue own.ownerByTarget target = 0
      ∧ target ∉ own.peers := by
  have unowned : Table.countValue own.ownerByTarget target = 0 := by
    by_contra positive
    obtain ⟨holder, found⟩ := countValue_pos_iff.mp (Nat.pos_of_ne_zero positive)
    have bound := consistent.owners holder target found
    omega
  refine ⟨fun member => ?_, unowned, fun member => ?_⟩
  · have bound := consistent.holders target member
    omega
  · have positive := (consistent.peers target).mp member
    omega

/-- Adopting a peer under a new target id keeps the books: the id becomes its own first
holder, with count one.
-/
theorem PeerOwnership.Consistent.adopt {own : PeerOwnership} {allocated : Nat}
    {target : UInt32} (consistent : own.Consistent allocated)
    (next : target.toNat = allocated + 1)
    : (adoptPeer target own).Consistent (allocated + 1) := by
  obtain ⟨unheld, unowned, unused⟩ := consistent.fresh target (by omega)
  have uncounted : target ∉ own.ownerRefCounts := by
    rw [← AList.lookup_eq_none, consistent.balanced target, if_pos unowned]
  simp only [adoptPeer, emplace, unheld, unused, uncounted, if_false]
  refine {
    balanced := by simpa [unowned] using consistent.balanced.share unheld target
    peers := ?_
    accounted := ?_
    holders := ?_
    owners := ?_
  }
  · intro owner
    rw [Table.countValue_insert_fresh unheld, AList.mem_insert, consistent.peers owner]
    by_cases same : target = owner
    · simp [same]
    · simp [same, Ne.symm same]
  · rw [Table.values_insert_fresh unused, List.range_succ]
    exact (consistent.accounted.cons _).trans (List.perm_append_singleton _ _).symm
  · intro holder member
    rcases (AList.mem_insert _).mp member with same | old
    · exact same ▸ next.le
    · exact (consistent.holders holder old).trans (Nat.le_succ _)
  · intro holder owner found
    rcases eq_or_ne holder target with rfl | same
    · rw [AList.lookup_insert] at found
      exact Option.some.inj found ▸ next.le
    · rw [AList.lookup_insert_ne same] at found
      exact (consistent.owners holder owner found).trans (Nat.le_succ _)

/-- Retaining copies the source's ownership, if it has any, to the new id. The default
count of `retainPeerOwnership` is never used: a holder's owner always has a count.
-/
theorem PeerOwnership.Consistent.retain {own : PeerOwnership} {allocated : Nat}
    {target : UInt32} (consistent : own.Consistent allocated) (source : UInt32)
    (next : target.toNat = allocated + 1)
    : (retainPeerOwnership source target own).Consistent (allocated + 1) := by
  obtain ⟨unheld, _, _⟩ := consistent.fresh target (by omega)
  cases found : own.ownerByTarget.lookup source with
  | none =>
      simpa only [retainPeerOwnership, found] using consistent.mono (Nat.le_succ _)
  | some owner =>
      obtain ⟨positive, counted⟩ := consistent.balanced.count_of_holder found
      simp only [retainPeerOwnership, found, counted, Option.getD_some, emplace, unheld,
        if_false]
      refine {
        balanced := consistent.balanced.share unheld owner
        peers := ?_
        accounted := consistent.accounted
        holders := ?_
        owners := ?_
      }
      · intro other
        rw [Table.countValue_insert_fresh unheld, consistent.peers other]
        rcases eq_or_ne owner other with rfl | same
        · simp [positive]
        · simp [same]
      · intro holder member
        rcases (AList.mem_insert _).mp member with same | old
        · exact same ▸ next.le
        · exact (consistent.holders holder old).trans (Nat.le_succ _)
      · intro holder other stored
        rcases eq_or_ne holder target with rfl | same
        · rw [AList.lookup_insert] at stored
          have bound := consistent.owners source owner found
          exact Option.some.inj stored ▸ bound.trans (Nat.le_succ _)
        · rw [AList.lookup_insert_ne same] at stored
          exact (consistent.owners holder other stored).trans (Nat.le_succ _)

/-- `retained` becomes one more counted holder of the peer that `source` holds, if it holds
one, and nothing else changes hands.
-/
structure PeerOwnership.SharesOwner (source retained : UInt32) (before after : PeerOwnership)
    : Prop where
  holder : after.ownerByTarget.lookup retained = before.ownerByTarget.lookup source
  others
    : ∀ target, target ≠ retained →
        after.ownerByTarget.lookup target = before.ownerByTarget.lookup target
  counted
    : ∀ owner, before.ownerByTarget.lookup source = some owner →
        after.ownerRefCounts.lookup owner = (before.ownerRefCounts.lookup owner).map (· + 1)
  peers : after.peers = before.peers

/-- Retaining shares the source's peer with the new id. -/
theorem PeerOwnership.Consistent.retain_shares {own : PeerOwnership} {allocated : Nat}
    {retained : UInt32} (consistent : own.Consistent allocated) (source : UInt32)
    (above : allocated < retained.toNat)
    : own.SharesOwner source retained (retainPeerOwnership source retained own) := by
  obtain ⟨unheld, _, _⟩ := consistent.fresh retained above
  cases found : own.ownerByTarget.lookup source with
  | none =>
      simp only [retainPeerOwnership, found]
      refine ⟨?_, fun _ _ => rfl, fun owner holds => ?_, rfl⟩
      · rw [found, AList.lookup_eq_none.mpr unheld]
      · simp [found] at holds
  | some owner =>
      obtain ⟨_, counted⟩ := consistent.balanced.count_of_holder found
      simp only [retainPeerOwnership, found, counted, Option.getD_some, emplace, unheld,
        if_false]
      refine ⟨?_, fun target other => ?_, fun same holds => ?_, rfl⟩
      · rw [AList.lookup_insert, found]
      · rw [AList.lookup_insert_ne other]
      · obtain rfl : owner = same := Option.some.inj (found.symm.trans holds)
        rw [AList.lookup_insert, counted, Option.map_some]

/-- A peer that leaves the map is the one that is destroyed: the objects seen so far stay
the same.
-/
theorem accounted_of_erase {peers : Table UInt32 Nat} {destroyed : List Nat} {created : Nat}
    (accounted : (peers.values ++ destroyed).Perm (List.range created)) (owner : UInt32)
    : (Table.values (peers.erase owner) ++ (destroyed ++ (peers.lookup owner).toList)).Perm
        (List.range created) := by
  cases found : peers.lookup owner with
  | none =>
      have absent : owner ∉ peers := AList.lookup_eq_none.mp found
      have same : Table.values (peers.erase owner) = peers.values :=
        congrArg (List.map _) (List.kerase_of_notMem_keys absent)
      simpa [same] using accounted
  | some peer =>
      have split := (Table.values_perm_of_lookup found).append_right destroyed
      refine List.Perm.trans ?_ (split.symm.trans accounted)
      simp only [Option.toList_some, ← List.append_assoc]
      exact List.perm_append_comm

/-- Releasing a target takes its ownership away; the peer goes with the last holder. -/
theorem PeerOwnership.Consistent.release {own : PeerOwnership} {allocated : Nat}
    (consistent : own.Consistent allocated) (target : UInt32)
    : (releasePeerOwnership target own).Consistent allocated := by
  cases found : own.ownerByTarget.lookup target with
  | none => simpa only [releasePeerOwnership, found] using consistent
  | some owner =>
      obtain ⟨positive, counted⟩ := consistent.balanced.count_of_holder found
      have removed := Table.countValue_erase found
      have holders : ∀ holder ∈ own.ownerByTarget.erase target, holder.toNat ≤ allocated :=
        fun holder member => consistent.holders holder (AList.mem_erase.mp member).2
      have owners
          : ∀ holder other,
              (own.ownerByTarget.erase target).lookup holder = some other
              → other.toNat ≤ allocated := by
        intro holder other stored
        have distinct : holder ≠ target := by
          rintro rfl
          simp [AList.lookup_erase] at stored
        exact consistent.owners holder other (AList.lookup_erase_ne distinct ▸ stored)
      by_cases shared : 1 < Table.countValue own.ownerByTarget owner
      · simp only [releasePeerOwnership, found, counted, shared, if_true]
        refine {
          balanced := consistent.balanced.release found shared
          peers := ?_
          accounted := consistent.accounted
          holders := holders
          owners := owners
        }
        intro other
        dsimp only
        have count := removed other
        rw [consistent.peers other]
        rcases eq_or_ne owner other with rfl | same
        · simp only [if_true] at count
          omega
        · simp only [same, if_false, Nat.add_zero] at count
          rw [count]
      · have last : Table.countValue own.ownerByTarget owner = 1 := by omega
        simp only [releasePeerOwnership, found, counted, shared, if_false]
        refine {
          balanced := consistent.balanced.release_last found last
          peers := ?_
          accounted := accounted_of_erase consistent.accounted owner
          holders := holders
          owners := owners
        }
        intro other
        dsimp only
        have count := removed other
        rw [AList.mem_erase, consistent.peers other]
        rcases eq_or_ne owner other with rfl | same
        · simp only [if_true] at count
          have gone : Table.countValue (own.ownerByTarget.erase target) owner = 0 := by omega
          simp [gone]
        · simp only [same, if_false, Nat.add_zero] at count
          simp [count, Ne.symm same]

-----------------------------------------------------------------------------------------
-- All targets of a runtime
-----------------------------------------------------------------------------------------

variable {Cap : Type*}

/-- While ids are not reused, the live ids are below the counter, every holder of an
ownership is live, and both ownership structures are consistent.
-/
structure RuntimeTargets.Consistent (runtime : RuntimeTargets Cap) : Prop where
  next : runtime.nextTargetId = UInt32.ofNat (runtime.allocated + 1)
  ids : ∀ target ∈ runtime.targets, target.toNat ≤ runtime.allocated
  loopback : runtime.loopback.Consistent runtime.allocated
  network : runtime.network.Consistent runtime.allocated
  loopbackLive : ∀ target ∈ runtime.loopback.ownerByTarget, target ∈ runtime.targets
  networkLive : ∀ target ∈ runtime.network.ownerByTarget, target ∈ runtime.targets

/-- Nothing is owned at first. -/
theorem RuntimeTargets.Consistent.initial
    : RuntimeTargets.Consistent ({} : RuntimeTargets Cap) where
  next := rfl
  ids := by simp
  loopback := .empty 0
  network := .empty 0
  loopbackLive := by simp
  networkLive := by simp

/-- Adding a target allocates one id. -/
theorem addTarget_grows {runtime after : RuntimeTargets Cap} {cap : Cap} {targetId : UInt32}
    (added : addTarget runtime cap = some (targetId, after))
    : runtime.allocated ≤ after.allocated := by
  rw [(addTarget_spec added).2]
  exact Nat.le_succ _

/-- Without reuse the allocated id is the number of allocations so far, counted from 1. -/
theorem RuntimeTargets.Consistent.addTarget_id {runtime after : RuntimeTargets Cap}
    {cap : Cap} {targetId : UInt32} (consistent : runtime.Consistent)
    (added : addTarget runtime cap = some (targetId, after))
    (room : runtime.allocated + 1 < 2 ^ 32)
    : targetId.toNat = runtime.allocated + 1 := by
  have counter : runtime.nextTargetId.toNat = runtime.allocated + 1 := by
    rw [consistent.next, UInt32.toNat_ofNat_of_lt' room]
  have unused : runtime.nextTargetId ∉ runtime.targets := by
    intro member
    have bound := consistent.ids _ member
    omega
  simp only [addTarget, allocateId, unused, if_false, Option.map_some, Option.some.injEq,
    Prod.mk.injEq] at added
  exact added.1 ▸ counter

/-- The common part of every operation that adds a target: the new id joins the table,
and the owner maps may take it as a new holder.
-/
theorem RuntimeTargets.Consistent.add {runtime after : RuntimeTargets Cap} {cap : Cap}
    {targetId : UInt32} {loopback network : PeerOwnership} (consistent : runtime.Consistent)
    (added : addTarget runtime cap = some (targetId, after))
    (next : targetId.toNat = runtime.allocated + 1)
    (hl : loopback.Consistent (runtime.allocated + 1))
    (hn : network.Consistent (runtime.allocated + 1))
    (newLoopback
      : ∀ target ∈ loopback.ownerByTarget,
          target = targetId ∨ target ∈ runtime.loopback.ownerByTarget)
    (newNetwork
      : ∀ target ∈ network.ownerByTarget,
          target = targetId ∨ target ∈ runtime.network.ownerByTarget)
    : RuntimeTargets.Consistent { after with loopback := loopback, network := network } := by
  obtain ⟨_, rfl⟩ := addTarget_spec added
  refine {
    next := ?_
    ids := ?_
    loopback := hl
    network := hn
    loopbackLive := ?_
    networkLive := ?_
  }
  · show targetId + 1 = UInt32.ofNat (runtime.allocated + 1 + 1)
    rw [← next, UInt32.ofNat_add, UInt32.ofNat_toNat]
    rfl
  · intro target member
    rcases (AList.mem_insert _).mp member with same | old
    · exact same ▸ next.le
    · exact (consistent.ids target old).trans (Nat.le_succ _)
  · intro target member
    exact (AList.mem_insert _).mpr
      ((newLoopback target member).imp_right (consistent.loopbackLive target))
  · intro target member
    exact (AList.mem_insert _).mpr
      ((newNetwork target member).imp_right (consistent.networkLive target))

-----------------------------------------------------------------------------------------
-- Each operation keeps the targets consistent
-----------------------------------------------------------------------------------------

/-- Retaining adds at most the new id as a holder. -/
theorem mem_ownerByTarget_retain {source retained target : UInt32} {own : PeerOwnership}
    (member : target ∈ (retainPeerOwnership source retained own).ownerByTarget)
    : target = retained ∨ target ∈ own.ownerByTarget := by
  cases found : own.ownerByTarget.lookup source with
  | none => exact Or.inr (by simpa only [retainPeerOwnership, found] using member)
  | some owner => exact mem_emplace (by simpa only [retainPeerOwnership, found] using member)

/-- Releasing takes exactly the released target out of the owner map. -/
theorem ownerByTarget_release (target : UInt32) (own : PeerOwnership)
    : (releasePeerOwnership target own).ownerByTarget = own.ownerByTarget.erase target := by
  unfold releasePeerOwnership
  cases found : own.ownerByTarget.lookup target with
  | none =>
      have absent : target ∉ own.ownerByTarget := AList.lookup_eq_none.mp found
      exact AList.ext (List.kerase_of_notMem_keys absent).symm
  | some owner =>
      cases counted : own.ownerRefCounts.lookup owner with
      | none => simp only [counted]
      | some refCount =>
          rcases Nat.lt_or_ge 1 refCount with shared | last
          · simp only [counted, shared, if_true]
          · simp only [counted, Nat.not_lt.mpr last, if_false]

/-- Dropping a target allocates nothing. -/
@[simp] theorem dropTargetIfPresent_allocated (runtime : RuntimeTargets Cap)
    (target : UInt32)
    : (dropTargetIfPresent runtime target).2.allocated = runtime.allocated := rfl

/-- Dropping a target keeps the targets consistent. -/
theorem RuntimeTargets.Consistent.drop {runtime : RuntimeTargets Cap}
    (consistent : runtime.Consistent) (target : UInt32)
    : (dropTargetIfPresent runtime target).2.Consistent := by
  refine {
    next := consistent.next
    ids := fun other member => consistent.ids other (AList.mem_erase.mp member).2
    loopback := consistent.loopback.release target
    network := consistent.network.release target
    loopbackLive := ?_
    networkLive := ?_
  }
  · intro other member
    simp only [dropTargetIfPresent, ownerByTarget_release, AList.mem_erase] at member ⊢
    exact ⟨member.1, consistent.loopbackLive other member.2⟩
  · intro other member
    simp only [dropTargetIfPresent, ownerByTarget_release, AList.mem_erase] at member ⊢
    exact ⟨member.1, consistent.networkLive other member.2⟩

/-- Nor does dropping several. -/
theorem dropRequestCaps_allocated (runtime : RuntimeTargets Cap) (requestCapIds : List UInt32)
    : (dropRequestCaps runtime requestCapIds).allocated = runtime.allocated :=
  dropRequestCaps_preserves (fun state => state.allocated = runtime.allocated)
    (fun _ _ same => same) rfl

/-- Dropping several keeps them consistent as well. -/
theorem RuntimeTargets.Consistent.dropRequestCaps {runtime : RuntimeTargets Cap}
    (consistent : runtime.Consistent) (requestCapIds : List UInt32)
    : (dropRequestCaps runtime requestCapIds).Consistent :=
  dropRequestCaps_preserves RuntimeTargets.Consistent (fun target _ before => before.drop target)
    consistent

/-- An operation that adds one target, with its effect on the two ownership structures. -/
theorem RuntimeTargets.Consistent.add_owned {runtime after : RuntimeTargets Cap} {cap : Cap}
    {targetId : UInt32} (consistent : runtime.Consistent)
    (added : addTarget runtime cap = some (targetId, after))
    (room : after.allocated < 2 ^ 32)
    : after.Consistent
      ∧ (∀ source, (retainOwners source targetId after).Consistent)
      ∧ RuntimeTargets.Consistent { after with loopback := adoptPeer targetId after.loopback }
      ∧ RuntimeTargets.Consistent { after with network := adoptPeer targetId after.network } := by
  have spec := (addTarget_spec added).2
  have allocated : after.allocated = runtime.allocated + 1 := by rw [spec]
  have loopback : after.loopback = runtime.loopback := by rw [spec]
  have network : after.network = runtime.network := by rw [spec]
  have next := consistent.addTarget_id added (by omega)
  have hl := consistent.loopback.mono (Nat.le_succ _)
  have hn := consistent.network.mono (Nat.le_succ _)
  refine ⟨?_, ?_, ?_, ?_⟩
  · have kept := consistent.add added next hl hn (fun _ => Or.inr) (fun _ => Or.inr)
    rwa [← loopback, ← network] at kept
  · intro source
    simp only [retainOwners, loopback, network]
    exact consistent.add added next (consistent.loopback.retain source next)
      (consistent.network.retain source next) (fun _ => mem_ownerByTarget_retain)
      (fun _ => mem_ownerByTarget_retain)
  · have kept := consistent.add added next (consistent.loopback.adopt next) hn
      (fun _ => mem_emplace) (fun _ => Or.inr)
    rwa [← loopback, ← network] at kept
  · have kept := consistent.add added next hl (consistent.network.adopt next)
      (fun _ => Or.inr) (fun _ => mem_emplace)
    rwa [← loopback, ← network] at kept

/-- A new target that shares its source's owners is a counted holder of both of them. -/
theorem RuntimeTargets.Consistent.retainOwners_shares {runtime added : RuntimeTargets Cap}
    {cap : Cap} {retained : UInt32} (consistent : runtime.Consistent)
    (adding : addTarget runtime cap = some (retained, added))
    (room : added.allocated < 2 ^ 32) (source : UInt32)
    : runtime.loopback.SharesOwner source retained
        (retainOwners source retained added).loopback
      ∧ runtime.network.SharesOwner source retained
        (retainOwners source retained added).network := by
  have spec := (addTarget_spec adding).2
  have allocated : added.allocated = runtime.allocated + 1 := by rw [spec]
  have loopback : added.loopback = runtime.loopback := by rw [spec]
  have network : added.network = runtime.network := by rw [spec]
  have next := consistent.addTarget_id adding (by omega)
  simp only [retainOwners, loopback, network]
  exact ⟨consistent.loopback.retain_shares source (by omega),
    consistent.network.retain_shares source (by omega)⟩

/-- A retained target keeps its source's peers alive. -/
theorem RuntimeTargets.Consistent.retainTarget_shares {runtime after : RuntimeTargets Cap}
    {source retained : UInt32} (consistent : runtime.Consistent)
    (retaining : retainTarget runtime source = some (.ok retained, after))
    (room : after.allocated < 2 ^ 32)
    : runtime.loopback.SharesOwner source retained after.loopback
      ∧ runtime.network.SharesOwner source retained after.network := by
  unfold retainTarget at retaining
  split at retaining
  · simp at retaining
  · obtain ⟨⟨addedId, added⟩, adding, eq⟩ := Option.map_eq_some_iff.mp retaining
    obtain ⟨same, rfl⟩ := Prod.mk.inj eq
    obtain rfl := Except.ok.inj same
    exact consistent.retainOwners_shares adding room source

/-- The forwarding server's target keeps the forwarded target's peers alive. -/
theorem RuntimeTargets.Consistent.registerTailCallTarget_shares
    {runtime after : RuntimeTargets Cap} {forwarder : Cap → Cap} {source forwarderId : UInt32}
    (consistent : runtime.Consistent)
    (registering
      : registerTailCallTarget runtime forwarder source = some (.ok forwarderId, after))
    (room : after.allocated < 2 ^ 32)
    : runtime.loopback.SharesOwner source forwarderId after.loopback
      ∧ runtime.network.SharesOwner source forwarderId after.network := by
  unfold registerTailCallTarget at registering
  split at registering
  · simp at registering
  · obtain ⟨⟨addedId, added⟩, adding, eq⟩ := Option.map_eq_some_iff.mp registering
    obtain ⟨same, rfl⟩ := Prod.mk.inj eq
    obtain rfl := Except.ok.inj same
    exact consistent.retainOwners_shares adding room source

/-- One operation keeps the targets consistent while ids are not reused, whether it
succeeds or throws, and it never lowers the number of allocations.
-/
theorem TargetEffect.consistent {runtime after : RuntimeTargets Cap} {dropped : List UInt32}
    (effect : TargetEffect runtime dropped after)
    : runtime.allocated ≤ after.allocated
      ∧ (runtime.Consistent → after.allocated < 2 ^ 32 → after.Consistent) := by
  cases effect with
  | unchanged => exact ⟨le_rfl, fun consistent _ => consistent⟩
  | added adding =>
      exact ⟨addTarget_grows adding, fun consistent room => (consistent.add_owned adding room).1⟩
  | retained source adding =>
      have grows := addTarget_grows adding
      exact ⟨grows, fun consistent room => (consistent.add_owned adding room).2.1 source⟩
  | loopback adding =>
      have grows := addTarget_grows adding
      exact ⟨grows, fun consistent room => (consistent.add_owned adding room).2.2.1⟩
  | network adding =>
      have grows := addTarget_grows adding
      exact ⟨grows, fun consistent room => (consistent.add_owned adding room).2.2.2⟩
  | drops _ =>
      exact ⟨(dropRequestCaps_allocated runtime _).ge,
        fun consistent _ => consistent.dropRequestCaps _⟩

/-- Every reachable state without id reuse is consistent, by induction over the run. -/
theorem reachable_consistent {runtime : RuntimeTargets Cap}
    (reached : (targetSystem Cap).Reachable runtime) (room : runtime.allocated < 2 ^ 32)
    : runtime.Consistent := by
  revert room
  refine reached.invariant (fun state => state.allocated < 2 ^ 32 → state.Consistent) ?_ ?_
  · rintro first rfl _
    exact .initial
  · intro before op after step consistent room
    obtain ⟨⟨answer, left⟩, ran, rfl⟩ := Option.map_eq_some_iff.mp step
    obtain ⟨grows, preserved⟩ := (TargetOp.run_effect ran).consistent
    exact preserved (consistent (grows.trans_lt room)) room

/-- The live targets whose owner entry names `owner`. -/
def liveTargetsOf (targets : Table UInt32 Cap) (own : PeerOwnership) (owner : UInt32)
    : List UInt32 :=
  targets.keys.filter (fun target => own.ownerByTarget.lookup target = some owner)

/-- The count of an owned peer is its number of live targets, a peer is present exactly
when that number is positive, and no peer object is destroyed twice or lost.
-/
structure PeerOwnership.FollowsTargets (own : PeerOwnership) (targets : Table UInt32 Cap)
    : Prop where
  refCount
    : ∀ owner ∈ own.peers,
        own.ownerRefCounts.lookup owner = some (liveTargetsOf targets own owner).length
  present : ∀ owner, owner ∈ own.peers ↔ 0 < (liveTargetsOf targets own owner).length
  counted : ∀ owner, owner ∈ own.ownerRefCounts ↔ owner ∈ own.peers
  destroyedOnce : (own.peers.values ++ own.destroyed).Perm (List.range own.created)

/-- Counting holders over the live targets counts them all. Witness: both lists are
duplicate-free with the same members.
-/
theorem length_liveTargetsOf {targets : Table UInt32 Cap} {own : PeerOwnership}
    (live : ∀ target ∈ own.ownerByTarget, target ∈ targets) (owner : UInt32)
    : (liveTargetsOf targets own owner).length = Table.countValue own.ownerByTarget owner := by
  rw [← Table.length_keysOf]
  apply List.Perm.length_eq
  refine (List.perm_ext_iff_of_nodup (targets.keys_nodup.filter _)
    (Table.nodup_keysOf _ _)).mpr (fun target => ?_)
  simp only [List.mem_filter, Table.mem_keysOf, decide_eq_true_eq]
  refine ⟨And.right, fun found => ⟨?_, found⟩⟩
  exact live target (AList.lookup_isSome.mp (by simp [found]))

/-- Consistent owners follow the targets, as every holder is one. -/
theorem PeerOwnership.Consistent.followsTargets {own : PeerOwnership} {allocated : Nat}
    {targets : Table UInt32 Cap} (consistent : own.Consistent allocated)
    (live : ∀ target ∈ own.ownerByTarget, target ∈ targets)
    : own.FollowsTargets targets where
  refCount := by
    intro owner present
    have positive := (consistent.peers owner).mp present
    rw [length_liveTargetsOf live, consistent.balanced owner, if_neg (by omega)]
  present := by
    intro owner
    rw [length_liveTargetsOf live, consistent.peers owner]
  counted := by
    intro owner
    rw [consistent.peers owner, ← AList.lookup_isSome, consistent.balanced owner]
    split <;> simp <;> omega
  destroyedOnce := consistent.accounted

/-- In every state reached without id reuse, loopback and network peers follow the targets
that own them, also after operations that failed.
-/
theorem peers_follow_targets {runtime : RuntimeTargets Cap}
    (reached : (targetSystem Cap).Reachable runtime) (room : runtime.allocated < 2 ^ 32)
    : runtime.loopback.FollowsTargets runtime.targets
      ∧ runtime.network.FollowsTargets runtime.targets :=
  have consistent := reachable_consistent reached room
  ⟨consistent.loopback.followsTargets consistent.loopbackLive,
    consistent.network.followsTargets consistent.networkLive⟩

/-- A connected peer outlives its first target through a retained one and is destroyed
once, by a batch release that then throws at an unknown id.
-/
theorem peers_follow_targets_shared_connection
    : ∃ runtime : RuntimeTargets Nat,
        (targetSystem Nat).Reachable runtime
        ∧ runtime.network.destroyed = [0]
        ∧ runtime.network.FollowsTargets runtime.targets := by
  let operations : List (TargetOp Nat) :=
    [.connect (.ok 7), .retain 1, .release 1, .releaseMany [2, 9]]
  let checks (runtime : RuntimeTargets Nat) : Bool :=
    decide (runtime.allocated < 2 ^ 32) && decide (runtime.network.destroyed = [0])
  have replayed : ∃ runtime, (targetSystem Nat).Reachable runtime ∧ checks runtime = true :=
    Transition.exists_reachable_of_replay operations checks (by decide)
  obtain ⟨runtime, reached, checked⟩ := replayed
  simp only [checks, Bool.and_eq_true, decide_eq_true_eq] at checked
  exact ⟨runtime, reached, checked.2, (peers_follow_targets reached checked.1).2⟩

end Capnp.Rpc
