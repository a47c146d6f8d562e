import Capnp.Library.ByteString
import Capnp.Rpc.MultiVatPeers

/-! Published sturdy references. Each peer keeps the capabilities it has published under their
object ids, and the peers are found by name.
-/

namespace Capnp.Rpc

-----------------------------------------------------------------------------------------
-- The operations on sturdy references
-----------------------------------------------------------------------------------------

section Operations

variable {Cap : Type}

def requireMultiVatPeer (peerId : UInt32) (runtime : MultiVatRuntime Cap)
    : Except String MultiVatPeer :=
  match runtime.multiVatPeers.lookup peerId with
  | none => .error ("unknown multi-vat peer id: " ++ toString peerId)
  | some peer => .ok peer

def requireMultiVatPeerByHost (host : String) (runtime : MultiVatRuntime Cap)
    : Except String MultiVatPeer :=
  match runtime.multiVatPeerIdsByName.lookup host with
  | none => .error ("unknown multi-vat host: " ++ host)
  | some peerId => requireMultiVatPeer peerId runtime

/-- A key may have zero bytes, and may be empty. -/
def sturdyObjectKey (objectId : List UInt8) : List UInt8 :=
  if objectId.length = 0 then [] else objectId

/-- The key of an object id is the id. -/
@[simp] theorem sturdyObjectKey_eq (objectId : List UInt8)
    : sturdyObjectKey objectId = objectId := by
  cases objectId <;> rfl

def noSturdyRefs (hostPeerId : UInt32) : String :=
  "no sturdy refs published for host peer id: " ++ toString hostPeerId

def multiVatPublishSturdyRef (hostPeerId : UInt32) (objectId : List UInt8) (targetId : UInt32)
    (runtime : MultiVatRuntime Cap)
    : Except String (MultiVatRuntime Cap) := do
  let _ ← requireMultiVatPeer hostPeerId runtime
  match runtime.runtime.targets.lookup targetId with
  | none => .error (unknownTarget targetId)
  | some cap =>
      let hostRefs := (runtime.sturdyRefs.lookup hostPeerId).getD ∅
      .ok
        { runtime with
          sturdyRefs :=
            runtime.sturdyRefs.insert hostPeerId (hostRefs.insert (sturdyObjectKey objectId) cap) }

def multiVatUnpublishSturdyRef (hostPeerId : UInt32) (objectId : List UInt8)
    (runtime : MultiVatRuntime Cap)
    : Except String (MultiVatRuntime Cap) := do
  let _ ← requireMultiVatPeer hostPeerId runtime
  match runtime.sturdyRefs.lookup hostPeerId with
  | none => .error (noSturdyRefs hostPeerId)
  | some hostRefs =>
      if sturdyObjectKey objectId ∈ hostRefs then
        let hostRefs := hostRefs.erase (sturdyObjectKey objectId)
        .ok
          { runtime with
            sturdyRefs :=
              if hostRefs.keys = [] then runtime.sturdyRefs.erase hostPeerId
              else runtime.sturdyRefs.insert hostPeerId hostRefs }
      else .error "unknown sturdy ref object id"

def multiVatClearPublishedSturdyRefs (hostPeerId : UInt32) (runtime : MultiVatRuntime Cap)
    : Except String (MultiVatRuntime Cap) := do
  let _ ← requireMultiVatPeer hostPeerId runtime
  .ok { runtime with sturdyRefs := runtime.sturdyRefs.erase hostPeerId }

/-- What a host without a restorer of its own has published under an object id. -/
def findSturdyRef (sourcePeerId : UInt32) (hostVatId : LeanVatId) (objectId : List UInt8)
    (runtime : MultiVatRuntime Cap)
    : Except String Cap := do
  let _ ← requireMultiVatPeer sourcePeerId runtime
  let host ← requireMultiVatPeerByHost hostVatId.host runtime
  match runtime.multiVatPeerIdsByName.lookup host.name with
  | none => .error "unordered_map::at"
  | some hostId =>
      match runtime.sturdyRefs.lookup hostId with
      | none => .error ("no sturdy refs published for host: " ++ host.name)
      | some hostRefs =>
          match hostRefs.lookup (sturdyObjectKey objectId) with
          | none => .error "unknown sturdy ref object id"
          | some cap => .ok cap

/-- The capability becomes a target, without an owner entry. -/
def multiVatRestoreSturdyRef (sourcePeerId : UInt32) (hostVatId : LeanVatId)
    (objectId : List UInt8) (runtime : MultiVatRuntime Cap)
    : Option (Except String UInt32 × MultiVatRuntime Cap) :=
  match findSturdyRef sourcePeerId hostVatId objectId runtime with
  | .error reason => some (.error reason, runtime)
  | .ok cap =>
      (addTarget runtime.runtime cap).map
        (fun (targetId, targets) => (.ok targetId, { runtime with runtime := targets }))

end Operations

-----------------------------------------------------------------------------------------
-- What they do to the references
-----------------------------------------------------------------------------------------

section Operations

variable {Cap : Type} {before after : MultiVatRuntime Cap}

/-- A required peer is a live one. -/
theorem requireMultiVatPeer_ok_iff {peerId : UInt32} {peer : MultiVatPeer}
    : requireMultiVatPeer peerId before = .ok peer
      ↔ before.multiVatPeers.lookup peerId = some peer := by
  unfold requireMultiVatPeer
  cases before.multiVatPeers.lookup peerId <;> simp

/-- A publish that succeeds stores the target's capability. -/
theorem publish_ok {hostPeerId targetId : UInt32} {objectId : List UInt8}
    (published : multiVatPublishSturdyRef hostPeerId objectId targetId before = .ok after)
    : ∃ cap,
        before.runtime.targets.lookup targetId = some cap
        ∧ after
          = { before with
              sturdyRefs :=
                before.sturdyRefs.insert hostPeerId
                  (((before.sturdyRefs.lookup hostPeerId).getD ∅).insert objectId cap) } := by
  obtain ⟨peer, -, rest⟩ := ByteString.bind_eq_ok_iff.mp published
  cases found : before.runtime.targets.lookup targetId with
  | none => simp [found] at rest
  | some cap =>
      simp only [found, Except.ok.injEq, sturdyObjectKey_eq] at rest
      exact ⟨cap, rfl, rest.symm⟩

/-- An unpublish that succeeds erases a stored one. -/
theorem unpublish_ok {hostPeerId : UInt32} {objectId : List UInt8}
    (unpublished : multiVatUnpublishSturdyRef hostPeerId objectId before = .ok after)
    : ∃ hostRefs,
        before.sturdyRefs.lookup hostPeerId = some hostRefs
        ∧ after
          = { before with
              sturdyRefs :=
                if (hostRefs.erase objectId).keys = [] then before.sturdyRefs.erase hostPeerId
                else before.sturdyRefs.insert hostPeerId (hostRefs.erase objectId) } := by
  obtain ⟨peer, -, rest⟩ := ByteString.bind_eq_ok_iff.mp unpublished
  cases found : before.sturdyRefs.lookup hostPeerId with
  | none => simp [found] at rest
  | some hostRefs =>
      by_cases present : objectId ∈ hostRefs
      · simp only [found, sturdyObjectKey_eq, present, if_true] at rest
        exact ⟨hostRefs, rfl, (Except.ok.inj rest).symm⟩
      · simp [found, present] at rest

/-- A clear that succeeds erases all of the host. -/
theorem clear_ok {hostPeerId : UInt32}
    (cleared : multiVatClearPublishedSturdyRefs hostPeerId before = .ok after)
    : after = { before with sturdyRefs := before.sturdyRefs.erase hostPeerId } := by
  obtain ⟨peer, -, rest⟩ := ByteString.bind_eq_ok_iff.mp cleared
  exact (Except.ok.inj rest).symm

/-- The capability under a key of a host's references. -/
def MultiVatRuntime.sturdyRef? (runtime : MultiVatRuntime Cap) (hostPeerId : UInt32)
    (objectId : List UInt8)
    : Option Cap :=
  (runtime.sturdyRefs.lookup hostPeerId).bind (fun hostRefs => hostRefs.lookup objectId)

/-- Exactly one reference is set. -/
theorem sturdyRef?_publish {hostPeerId targetId other : UInt32} {objectId otherId : List UInt8}
    (published : multiVatPublishSturdyRef hostPeerId objectId targetId before = .ok after)
    : after.sturdyRef? other otherId
      = if other = hostPeerId ∧ otherId = objectId then before.runtime.targets.lookup targetId
        else before.sturdyRef? other otherId := by
  obtain ⟨cap, found, rfl⟩ := publish_ok published
  simp only [MultiVatRuntime.sturdyRef?]
  rcases eq_or_ne other hostPeerId with rfl | elsewhere
  · rw [AList.lookup_insert, Option.bind_some]
    rcases eq_or_ne otherId objectId with rfl | apart
    · simp [found]
    · rw [AList.lookup_insert_ne apart, if_neg (by simp [apart])]
      cases before.sturdyRefs.lookup other with
      | none => rfl
      | some hostRefs => rfl
  · rw [AList.lookup_insert_ne elsewhere, if_neg (by simp [elsewhere])]

/-- Exactly one reference is erased. -/
theorem sturdyRef?_unpublish {hostPeerId other : UInt32} {objectId otherId : List UInt8}
    (unpublished : multiVatUnpublishSturdyRef hostPeerId objectId before = .ok after)
    : after.sturdyRef? other otherId
      = if other = hostPeerId ∧ otherId = objectId then none
        else before.sturdyRef? other otherId := by
  obtain ⟨hostRefs, found, rfl⟩ := unpublish_ok unpublished
  simp only [MultiVatRuntime.sturdyRef?]
  rcases eq_or_ne other hostPeerId with rfl | elsewhere
  · have erased
        : (hostRefs.erase objectId).lookup otherId
          = if other = other ∧ otherId = objectId then none
            else (before.sturdyRefs.lookup other).bind (fun refs => refs.lookup otherId) := by
      rw [found, Option.bind_some]
      rcases eq_or_ne otherId objectId with rfl | apart
      · simp
      · rw [AList.lookup_erase_ne apart, if_neg (by simp [apart])]
    rw [← erased]
    split_ifs with last
    · -- The host's last reference is gone, and the host's entry with it.
      rw [AList.lookup_erase, Option.bind_none, eq_comm, AList.lookup_eq_none, AList.mem_keys, last]
      exact List.not_mem_nil
    · rw [AList.lookup_insert, Option.bind_some]
  · have apart : ¬ (other = hostPeerId ∧ otherId = objectId) := fun same => elsewhere same.1
    rw [if_neg apart]
    split_ifs with last
    · rw [AList.lookup_erase_ne elsewhere]
    · rw [AList.lookup_insert_ne elsewhere]

/-- Exactly the references of one host are erased. -/
theorem sturdyRef?_erase {hostPeerId : UInt32}
    (erased : after.sturdyRefs = before.sturdyRefs.erase hostPeerId) (other : UInt32)
    (objectId : List UInt8)
    : after.sturdyRef? other objectId
      = if other = hostPeerId then none else before.sturdyRef? other objectId := by
  simp only [MultiVatRuntime.sturdyRef?, erased]
  rcases eq_or_ne other hostPeerId with rfl | elsewhere
  · simp
  · rw [AList.lookup_erase_ne elsewhere, if_neg elsewhere]

/-- A restore changes the targets at most, by a new one for what it finds. -/
theorem restore_cases {sourcePeerId : UInt32} {hostVatId : LeanVatId} {objectId : List UInt8}
    {result : Except String UInt32}
    (step : multiVatRestoreSturdyRef sourcePeerId hostVatId objectId before = some (result, after))
    : (∃ reason,
        findSturdyRef sourcePeerId hostVatId objectId before = .error reason
        ∧ result = .error reason
        ∧ after = before)
      ∨ ∃ cap targetId targets,
          findSturdyRef sourcePeerId hostVatId objectId before = .ok cap
          ∧ result = .ok targetId
          ∧ addTarget before.runtime cap = some (targetId, targets)
          ∧ after = { before with runtime := targets } := by
  unfold multiVatRestoreSturdyRef at step
  cases found : findSturdyRef sourcePeerId hostVatId objectId before with
  | error reason =>
      simp only [found, Option.some.injEq, Prod.mk.injEq] at step
      obtain ⟨rfl, rfl⟩ := step
      exact .inl ⟨reason, rfl, rfl, rfl⟩
  | ok cap =>
      simp only [found, Option.map_eq_some_iff] at step
      obtain ⟨⟨targetId, targets⟩, adding, same⟩ := step
      obtain ⟨rfl, rfl⟩ := Prod.mk.inj same
      exact .inr ⟨cap, targetId, targets, rfl, rfl, adding, rfl⟩

end Operations

-----------------------------------------------------------------------------------------
-- What the operations on peers do to the references
-----------------------------------------------------------------------------------------

open MultiVatRuntime

section PeerOperations

variable {Cap : Type*} {before after : MultiVatRuntime Cap}

/-- The references after an operation on peers: only the release of a peer takes its own. -/
inductive RefsEffect (before after : MultiVatRuntime Cap) : Prop
  | same (peers : before.SamePeers after) (refs : after.sturdyRefs = before.sturdyRefs)
  | vatAdded (name : String) (added : before.VatAdded name after)
    (refs : after.sturdyRefs = before.sturdyRefs)
  | peerAdded (name : String) (peerId : UInt32) (added : before.PeerAdded name peerId after)
    (refs : after.sturdyRefs = before.sturdyRefs)
  | peerReleased (peerId : UInt32) (peer : MultiVatPeer)
    (released : before.PeerReleased peerId peer after)
    (refs : after.sturdyRefs = before.sturdyRefs.erase peerId)

/-- Starting a peer touches neither references nor targets. -/
theorem startMultiVatPeer_kept {name : String} {started : Except String Unit}
    {result : Except String UInt32}
    (step : startMultiVatPeer name started before = some (result, after))
    : after.sturdyRefs = before.sturdyRefs ∧ after.runtime = before.runtime := by
  unfold startMultiVatPeer at step
  cases network : before.genericVatNetwork.add name with
  | error text =>
      simp only [network, Option.some.injEq, Prod.mk.injEq] at step
      obtain ⟨-, rfl⟩ := step
      exact ⟨rfl, rfl⟩
  | ok added =>
      cases started with
      | error text =>
          simp only [network, Option.some.injEq, Prod.mk.injEq] at step
          obtain ⟨-, rfl⟩ := step
          exact ⟨rfl, rfl⟩
      | ok _ =>
          simp only [network, addMultiVatPeer, Option.map_map, Option.map_eq_some_iff] at step
          obtain ⟨⟨peerId, next⟩, -, same⟩ := step
          obtain ⟨-, rfl⟩ := Prod.mk.inj same
          exact ⟨rfl, rfl⟩

/-- The targets change by an operation on targets only. -/
theorem MultiVatOp.run_refs {op : MultiVatOp Cap} {result : Except String Unit}
    (step : op.run before = some (result, after))
    : RefsEffect before after
      ∧ (after.runtime = before.runtime
        ∨ ∃ targetOp answer, op = .targets targetOp
          ∧ targetOp.run before.runtime = some (answer, after.runtime)) := by
  cases creates : op.creates? with
  | some name =>
      rcases op.run_creates creates with ⟨known, started, starts, runs⟩ | ⟨unknown, text, runs⟩
      · rw [runs] at step
        obtain ⟨⟨answer, final⟩, begun, same⟩ := Option.map_eq_some_iff.mp step
        obtain ⟨-, rfl⟩ := Prod.mk.inj same
        obtain ⟨refs, targets⟩ := startMultiVatPeer_kept begun
        refine ⟨?_, .inl targets⟩
        rcases startMultiVatPeer_cases begun with
          ⟨-, -, rfl⟩ | ⟨-, -, added⟩ | ⟨-, -, peerId, added⟩
        · exact .same ⟨rfl, rfl, rfl⟩ refs
        · exact .vatAdded name added refs
        · exact .peerAdded name peerId added refs
      · rw [runs] at step
        obtain ⟨-, rfl⟩ := Prod.mk.inj (Option.some.inj step)
        exact ⟨.same ⟨rfl, rfl, rfl⟩ rfl, .inl rfl⟩
  | none =>
      cases op with
      | releaseMultiVatPeer peerId =>
          simp only [run, Rpc.releaseMultiVatPeer] at step
          cases live : before.multiVatPeers.lookup peerId with
          | none =>
              simp only [live, Option.some.injEq, Prod.mk.injEq] at step
              obtain ⟨-, rfl⟩ := step
              exact ⟨.same ⟨rfl, rfl, rfl⟩ rfl, .inl rfl⟩
          | some peer =>
              simp only [live, Option.some.injEq, Prod.mk.injEq] at step
              obtain ⟨-, rfl⟩ := step
              exact ⟨.peerReleased peerId peer ⟨live, rfl, rfl, rfl⟩ rfl, .inl rfl⟩
      | targets targetOp =>
          obtain ⟨⟨answer, targets⟩, ran, same⟩ := Option.map_eq_some_iff.mp step
          obtain ⟨-, rfl⟩ := Prod.mk.inj same
          exact ⟨.same ⟨rfl, rfl, rfl⟩ rfl, .inr ⟨targetOp, answer, rfl, ran⟩⟩
      | newMultiVatClient => cases creates
      | newMultiVatServer => cases creates
      | newMultiVatServerWithBootstrapFactory => cases creates

end PeerOperations

end Capnp.Rpc
