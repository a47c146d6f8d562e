import Capnp.Rpc.BatchRelease
import Capnp.Rpc.MultiVatPeers

/-! What keeps the connection of a capability alive: the targets that own its peer. The peer is
gone when its last owner is dropped.
-/

namespace Capnp.Rpc

-----------------------------------------------------------------------------------------
-- Capabilities that go through a peer
-----------------------------------------------------------------------------------------

/-- The object of a loopback or network peer, by its number. -/
inductive PeerObject where
  | loopback (number : Nat)
  | network (number : Nat)
deriving DecidableEq

/-- A client, and the peer that owns the connection it goes through, if one does. -/
structure PeerCap (Client : Type) where
  client : Client
  peer? : Option PeerObject := none
deriving DecidableEq

variable {Client : Type}

/-- The capability of a new connection is owned by the peer that the operation makes, and one
that forwards to another goes where that goes.
-/
def TargetOp.withPeer (runtime : RuntimeTargets (PeerCap Client))
    : TargetOp Client → TargetOp (PeerCap Client)
  | .addCap client => .addCap { client }
  | .connect outcome =>
      .connect
        (outcome.map
          (fun client => { client, peer? := some (.network runtime.network.created) }))
  | .registerLoopback bootstrapTarget client =>
      .registerLoopback bootstrapTarget
        { client, peer? := some (.loopback runtime.loopback.created) }
  | .retain target => .retain target
  | .registerTailCall target forwarder =>
      .registerTailCall target (fun cap => { cap with client := forwarder cap.client })
  | .release target => .release target
  | .releaseMany targets => .releaseMany targets
  | .dropRequest requestCapIds => .dropRequest requestCapIds
  | .dropRequestExcept requestCapIds retainedCaps => .dropRequestExcept requestCapIds retainedCaps
  | .dropRequestExceptOne requestCapIds retainedCapId =>
      .dropRequestExceptOne requestCapIds retainedCapId

def MultiVatOp.withPeer (runtime : RuntimeTargets (PeerCap Client))
    : MultiVatOp Client → MultiVatOp (PeerCap Client)
  | .newMultiVatClient name started => .newMultiVatClient name started
  | .newMultiVatServer name bootstrapTarget started =>
      .newMultiVatServer name bootstrapTarget started
  | .newMultiVatServerWithBootstrapFactory name started =>
      .newMultiVatServerWithBootstrapFactory name started
  | .releaseMultiVatPeer peerId => .releaseMultiVatPeer peerId
  | .targets op => .targets (op.withPeer runtime)

/-- The peer is in its map. -/
def PeerAlive {Cap : Type} (runtime : RuntimeTargets Cap) : PeerObject → Prop
  | .loopback number => number ∈ Table.values runtime.loopback.peers
  | .network number => number ∈ Table.values runtime.network.peers

instance {Cap : Type} (runtime : RuntimeTargets Cap)
    : (peer : PeerObject) → Decidable (PeerAlive runtime peer)
  | .loopback number => inferInstanceAs (Decidable (number ∈ Table.values runtime.loopback.peers))
  | .network number => inferInstanceAs (Decidable (number ∈ Table.values runtime.network.peers))

-----------------------------------------------------------------------------------------
-- Peers that stay alive
-----------------------------------------------------------------------------------------

/-- Dropping the target destroys the peer object: its holder is the last that is counted. -/
def PeerOwnership.dropsLast (own : PeerOwnership) (target : UInt32) (number : Nat) : Bool :=
  (own.ownerByTarget.lookup target).any
    (fun owner =>
      decide (own.peers.lookup owner = some number)
        && (own.ownerRefCounts.lookup owner).any (fun refCount => decide (refCount ≤ 1)))

def destroysPeer {Cap : Type} (runtime : RuntimeTargets Cap) (target : UInt32)
    : PeerObject → Bool
  | .loopback number => runtime.loopback.dropsLast target number
  | .network number => runtime.network.dropsLast target number

/-- No target of a list is the last holder of the peer when its turn comes to be dropped. -/
def sparesPeer {Cap : Type} (peer : PeerObject) : RuntimeTargets Cap → List UInt32 → Bool
  | _, [] => true
  | runtime, target :: rest =>
      !destroysPeer runtime target peer
        && sparesPeer peer (dropTargetIfPresent runtime target).2 rest

/-- The ids that a batch release drops: those up to the first unknown one. -/
def batchGone {Cap : Type} (runtime : RuntimeTargets Cap) : List UInt32 → List UInt32
  | [] => []
  | target :: rest =>
      if target = 0 then batchGone runtime rest
      else if target ∈ runtime.targets then
        target :: batchGone (dropTargetIfPresent runtime target).2 rest
      else [target]

/-- The ids that an operation drops, in order. -/
def TargetOp.gone {Cap : Type} (runtime : RuntimeTargets Cap) : TargetOp Cap → List UInt32
  | .releaseMany targets => batchGone runtime targets
  | op => op.dropped

section Owners

variable {Cap : Type} {runtime after : RuntimeTargets Cap}

/-- A batch drops the targets before the first unknown one. -/
theorem releaseTargets_eq_batchGone (runtime : RuntimeTargets Cap) (targets : List UInt32)
    : (releaseTargets runtime targets).2 = dropRequestCaps runtime (batchGone runtime targets) := by
  induction targets generalizing runtime with
  | nil => rfl
  | cons target rest ih =>
      unfold releaseTargets batchGone
      split
      · exact ih runtime
      · by_cases present : target ∈ runtime.targets
        · have here : (dropTargetIfPresent runtime target).1 = true := decide_eq_true present
          simp only [here, present, if_true]
          exact ih _
        · have here : (dropTargetIfPresent runtime target).1 = false := decide_eq_false present
          simp only [here, present, if_false]
          rfl

/-- An operation drops exactly these ids, or drops none. -/
theorem TargetOp.run_gone {op : TargetOp Cap} {answer : Except String (Option UInt32)}
    (ran : op.run runtime = some (answer, after))
    : TargetEffect runtime [] after ∨ after = dropRequestCaps runtime (op.gone runtime) := by
  cases op with
  | addCap cap => exact .inl (TargetOp.run_effect ran)
  | connect outcome => exact .inl (TargetOp.run_effect ran)
  | registerLoopback bootstrapTarget cap => exact .inl (TargetOp.run_effect ran)
  | retain source => exact .inl (TargetOp.run_effect ran)
  | registerTailCall source forwarder => exact .inl (TargetOp.run_effect ran)
  | release target =>
      obtain ⟨-, rfl⟩ := Prod.mk.inj (Option.some.inj ran)
      exact .inr rfl
  | releaseMany targets =>
      obtain ⟨-, rfl⟩ := Prod.mk.inj (Option.some.inj ran)
      exact .inr (releaseTargets_eq_batchGone runtime targets)
  | dropRequest requestCapIds =>
      obtain ⟨-, rfl⟩ := Prod.mk.inj (Option.some.inj ran)
      exact .inr rfl
  | dropRequestExcept requestCapIds retainedCaps =>
      obtain ⟨-, rfl⟩ := Prod.mk.inj (Option.some.inj ran)
      exact .inr (snd_dropRequestCapsExcept runtime requestCapIds retainedCaps)
  | dropRequestExceptOne requestCapIds retainedCapId =>
      obtain ⟨-, rfl⟩ := Prod.mk.inj (Option.some.inj ran)
      exact .inr rfl

/-- Emplacing keeps the values. -/
theorem mem_values_emplace {α : Type*} {table : Table UInt32 α} {key : UInt32}
    {value stored : α} (member : stored ∈ Table.values table)
    : stored ∈ Table.values (emplace table key value) := by
  unfold emplace
  split_ifs with present
  · exact member
  · rw [Table.values_insert_fresh present]
    exact List.mem_cons_of_mem _ member

/-- Only the last holder takes a peer object out of its map. -/
theorem mem_peers_release {own : PeerOwnership} {target : UInt32} {number : Nat}
    (alive : number ∈ Table.values own.peers) (spared : own.dropsLast target number = false)
    : number ∈ Table.values (releasePeerOwnership target own).peers := by
  obtain ⟨owner, found⟩ := Table.mem_values_iff.mp alive
  unfold releasePeerOwnership
  cases held : own.ownerByTarget.lookup target with
  | none => exact alive
  | some other =>
      cases counted : own.ownerRefCounts.lookup other with
      | none => simpa only [counted] using alive
      | some refCount =>
          rcases Nat.lt_or_ge 1 refCount with shared | last
          · simpa only [counted, shared, if_true] using alive
          · simp only [counted, Nat.not_lt.mpr last, if_false]
            have different : owner ≠ other := by
              rintro rfl
              simp [PeerOwnership.dropsLast, held, found, counted] at spared
              omega
            exact Table.mem_values_iff.mpr ⟨owner, (AList.lookup_erase_ne different).trans found⟩

/-- A peer that is spared stays alive. -/
theorem PeerAlive.dropRequestCaps {peer : PeerObject} {targets : List UInt32}
    (alive : PeerAlive runtime peer) (spared : sparesPeer peer runtime targets = true)
    : PeerAlive (dropRequestCaps runtime targets) peer := by
  induction targets generalizing runtime with
  | nil => exact alive
  | cons target rest ih =>
      simp only [sparesPeer, Bool.and_eq_true, Bool.not_eq_true'] at spared
      refine ih ?_ spared.2
      cases peer with
      | loopback number => exact mem_peers_release alive spared.1
      | network number => exact mem_peers_release alive spared.1

/-- Retaining neither adds nor destroys a peer. -/
theorem peers_retainPeerOwnership (source retained : UInt32) (own : PeerOwnership)
    : (retainPeerOwnership source retained own).peers = own.peers := by
  unfold retainPeerOwnership
  split <;> rfl

/-- A further target destroys no peer. -/
theorem PeerAlive.addTarget {peer : PeerObject} {cap : Cap} {targetId : UInt32}
    (adding : addTarget runtime cap = some (targetId, after)) (alive : PeerAlive runtime peer)
    : PeerAlive after peer := by
  obtain ⟨-, rfl⟩ := addTarget_spec adding
  cases peer <;> exact alive

/-- An operation that drops nothing keeps all peers. -/
theorem PeerAlive.kept {peer : PeerObject} (alive : PeerAlive runtime peer)
    (effect : TargetEffect runtime [] after)
    : PeerAlive after peer := by
  cases effect with
  | unchanged => exact alive
  | added adding => exact alive.addTarget adding
  | retained source adding =>
      have kept := alive.addTarget adding
      cases peer <;> simpa only [PeerAlive, retainOwners, peers_retainPeerOwnership] using kept
  | loopback adding =>
      have kept := alive.addTarget adding
      cases peer with
      | loopback number => exact mem_values_emplace kept
      | network number => exact kept
  | network adding =>
      have kept := alive.addTarget adding
      cases peer with
      | loopback number => exact kept
      | network number => exact mem_values_emplace kept
  | drops included =>
      obtain rfl := List.subset_nil.mp included
      exact alive

end Owners

end Capnp.Rpc
