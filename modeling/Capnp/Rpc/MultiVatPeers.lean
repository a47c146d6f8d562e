import Capnp.Rpc.Targets
import Capnp.Rpc.VatTables

/-! Multi-vat peers of the runtime: the peer map, its index by name, and the vats that the
generic vat network registers for the peers.
-/

namespace Capnp.Rpc

/-- A peer by the name of its vat. -/
structure MultiVatPeer where
  name : String
deriving DecidableEq

/-- `sturdyRefs` keeps the published capabilities of each peer under their object ids. -/
structure MultiVatRuntime (Cap : Type*) where
  runtime : RuntimeTargets Cap := {}
  genericVatNetwork : GenericVatNetwork := {}
  multiVatPeers : Table UInt32 MultiVatPeer := ∅
  multiVatPeerIdsByName : Table String UInt32 := ∅
  sturdyRefs : Table UInt32 (Table (List UInt8) Cap) := ∅
  nextMultiVatPeerId : UInt32 := 1

section Operations

variable {Cap : Type*}

/-- `none` stands for a scan that finds every id in use and does not return. -/
def addMultiVatPeer (peer : MultiVatPeer) (runtime : MultiVatRuntime Cap)
    : Option (UInt32 × MultiVatRuntime Cap) :=
  (allocateId runtime.multiVatPeers (runtime.multiVatPeers.keys.length + 1)
    runtime.nextMultiVatPeerId).map
    (fun (peerId, next) =>
      (peerId,
        { runtime with
          nextMultiVatPeerId := next
          multiVatPeerIdsByName := runtime.multiVatPeerIdsByName.insert peer.name peerId
          multiVatPeers := runtime.multiVatPeers.insert peerId peer }))

/-- What the three constructors share. `started` is the outcome of the steps between the
registration of the vat and that of the peer: the allocations and the RPC system's start.
-/
def startMultiVatPeer (name : String) (started : Except String Unit)
    (runtime : MultiVatRuntime Cap)
    : Option (Except String UInt32 × MultiVatRuntime Cap) :=
  match runtime.genericVatNetwork.add name with
  | .error text => some (.error text, runtime)
  | .ok network =>
      let runtime := { runtime with genericVatNetwork := network }
      match started with
      | .error text => some (.error text, runtime)
      | .ok () =>
          (addMultiVatPeer { name } runtime).map (fun (peerId, runtime) => (.ok peerId, runtime))

def newMultiVatClient (name : String) (started : Except String Unit)
    (runtime : MultiVatRuntime Cap)
    : Option (Except String UInt32 × MultiVatRuntime Cap) :=
  startMultiVatPeer name started runtime

def newMultiVatServer (name : String) (bootstrapTarget : UInt32) (started : Except String Unit)
    (runtime : MultiVatRuntime Cap)
    : Option (Except String UInt32 × MultiVatRuntime Cap) :=
  if bootstrapTarget ∈ runtime.runtime.targets then startMultiVatPeer name started runtime
  else some (.error (unknownTarget bootstrapTarget), runtime)

def newMultiVatServerWithBootstrapFactory (name : String) (started : Except String Unit)
    (runtime : MultiVatRuntime Cap)
    : Option (Except String UInt32 × MultiVatRuntime Cap) :=
  startMultiVatPeer name started runtime

def releaseMultiVatPeer (peerId : UInt32) (runtime : MultiVatRuntime Cap)
    : Except String Unit × MultiVatRuntime Cap :=
  match runtime.multiVatPeers.lookup peerId with
  | none => (.error ("unknown multi-vat peer id: " ++ toString peerId), runtime)
  | some peer =>
      (.ok (),
        { runtime with
          multiVatPeerIdsByName := runtime.multiVatPeerIdsByName.erase peer.name
          sturdyRefs := runtime.sturdyRefs.erase peerId
          multiVatPeers := runtime.multiVatPeers.erase peerId })

end Operations

/-- The operations on peers, and those on the targets that a new server is given. -/
inductive MultiVatOp (Cap : Type*) where
  | newMultiVatClient (name : String) (started : Except String Unit)
  | newMultiVatServer (name : String) (bootstrapTarget : UInt32) (started : Except String Unit)
  | newMultiVatServerWithBootstrapFactory (name : String) (started : Except String Unit)
  | releaseMultiVatPeer (peerId : UInt32)
  | targets (op : TargetOp Cap)

section Runs

variable {Cap : Type*}

/-- The name of a peer to create. -/
def MultiVatOp.creates? : MultiVatOp Cap → Option String
  | .newMultiVatClient name _ => some name
  | .newMultiVatServer name _ _ => some name
  | .newMultiVatServerWithBootstrapFactory name _ => some name
  | _ => none

/-- The id of a peer to release. -/
def MultiVatOp.releases? : MultiVatOp Cap → Option UInt32
  | .releaseMultiVatPeer peerId => some peerId
  | _ => none

/-- The bootstrap target of a server to create is there. -/
def MultiVatOp.targetKnown (runtime : MultiVatRuntime Cap) : MultiVatOp Cap → Bool
  | .newMultiVatServer _ bootstrapTarget _ => decide (bootstrapTarget ∈ runtime.runtime.targets)
  | _ => true

/-- The steps after the registration of the vat go through. -/
def MultiVatOp.starts : MultiVatOp Cap → Bool
  | .newMultiVatClient _ started => started.isOk
  | .newMultiVatServer _ _ started => started.isOk
  | .newMultiVatServerWithBootstrapFactory _ started => started.isOk
  | _ => true

/-- One operation: whether it fails, and the state it leaves, also when it does. -/
def MultiVatOp.run (runtime : MultiVatRuntime Cap)
    : MultiVatOp Cap → Option (Except String Unit × MultiVatRuntime Cap)
  | .newMultiVatClient name started =>
      (Rpc.newMultiVatClient name started runtime).map
        (fun (result, runtime) => (result.map (fun _ => ()), runtime))
  | .newMultiVatServer name bootstrapTarget started =>
      (Rpc.newMultiVatServer name bootstrapTarget started runtime).map
        (fun (result, runtime) => (result.map (fun _ => ()), runtime))
  | .newMultiVatServerWithBootstrapFactory name started =>
      (Rpc.newMultiVatServerWithBootstrapFactory name started runtime).map
        (fun (result, runtime) => (result.map (fun _ => ()), runtime))
  | .releaseMultiVatPeer peerId => some (Rpc.releaseMultiVatPeer peerId runtime)
  | .targets op =>
      (op.run runtime.runtime).map
        (fun (result, after) =>
          (result.map (fun _ => ()), { runtime with runtime := after }))

def multiVatSystem (Cap : Type*) : Transition.System (MultiVatRuntime Cap) (MultiVatOp Cap) :=
  .ofFunction {} (fun runtime op => (op.run runtime).map Prod.snd)

-----------------------------------------------------------------------------------------
-- What one operation does
-----------------------------------------------------------------------------------------

/-- No live peer is released, and no creation fails after its vat has been registered. -/
def KeepsVats (runtime : MultiVatRuntime Cap) (op : MultiVatOp Cap) : Prop :=
  (∀ peerId ∈ op.releases?, peerId ∉ runtime.multiVatPeers)
  ∧ ∀ name ∈ op.creates?, op.targetKnown runtime = true →
      name ∉ runtime.genericVatNetwork.vats → op.starts = true

instance (runtime : MultiVatRuntime Cap) (op : MultiVatOp Cap)
    : Decidable (KeepsVats runtime op) :=
  -- Found by name: an id of an `Option` is to be tested, not each id there is.
  @instDecidableAnd _ _ (Option.decidableForallMem op.releases?)
    (Option.decidableForallMem op.creates?)

namespace MultiVatRuntime

/-- The vats, the peers and their index are the same. -/
structure SamePeers (before after : MultiVatRuntime Cap) : Prop where
  vats : after.genericVatNetwork.vats = before.genericVatNetwork.vats
  peers : after.multiVatPeers = before.multiVatPeers
  names : after.multiVatPeerIdsByName = before.multiVatPeerIdsByName

/-- The vat of a new name is registered, and nothing else. -/
structure VatAdded (before : MultiVatRuntime Cap) (name : String) (after : MultiVatRuntime Cap)
    : Prop where
  fresh : name ∉ before.genericVatNetwork.vats
  vats : after.genericVatNetwork.vats = before.genericVatNetwork.vats.insert name {}
  peers : after.multiVatPeers = before.multiVatPeers
  names : after.multiVatPeerIdsByName = before.multiVatPeerIdsByName

/-- A peer under a new name is registered everywhere. -/
structure PeerAdded (before : MultiVatRuntime Cap) (name : String) (peerId : UInt32)
    (after : MultiVatRuntime Cap) : Prop where
  fresh : name ∉ before.genericVatNetwork.vats
  unused : peerId ∉ before.multiVatPeers
  vats : after.genericVatNetwork.vats = before.genericVatNetwork.vats.insert name {}
  peers : after.multiVatPeers = before.multiVatPeers.insert peerId { name }
  names : after.multiVatPeerIdsByName = before.multiVatPeerIdsByName.insert name peerId

/-- A live peer leaves the map and the index, and its vat stays. -/
structure PeerReleased (before : MultiVatRuntime Cap) (peerId : UInt32) (peer : MultiVatPeer)
    (after : MultiVatRuntime Cap) : Prop where
  live : before.multiVatPeers.lookup peerId = some peer
  vats : after.genericVatNetwork.vats = before.genericVatNetwork.vats
  peers : after.multiVatPeers = before.multiVatPeers.erase peerId
  names : after.multiVatPeerIdsByName = before.multiVatPeerIdsByName.erase peer.name

end MultiVatRuntime

open MultiVatRuntime

/-- Starting a peer adds nothing, its vat alone, or its vat and itself. -/
theorem startMultiVatPeer_cases {runtime after : MultiVatRuntime Cap} {name : String}
    {started : Except String Unit} {result : Except String UInt32}
    (step : startMultiVatPeer name started runtime = some (result, after))
    : (name ∈ runtime.genericVatNetwork.vats ∧ result.isOk = false ∧ after = runtime)
      ∨ (started.isOk = false ∧ result.isOk = false ∧ runtime.VatAdded name after)
      ∨ (started.isOk = true ∧ result.isOk = true
        ∧ ∃ peerId, runtime.PeerAdded name peerId after) := by
  by_cases present : name ∈ runtime.genericVatNetwork.vats
  · left
    simp only [startMultiVatPeer, GenericVatNetwork.add, present, if_true, Option.some.injEq,
      Prod.mk.injEq] at step
    obtain ⟨rfl, rfl⟩ := step
    exact ⟨present, rfl, rfl⟩
  · right
    simp only [startMultiVatPeer, GenericVatNetwork.add, present, if_false] at step
    cases started with
    | error text =>
        left
        obtain ⟨rfl, rfl⟩ := Prod.mk.inj (Option.some.inj step)
        exact ⟨rfl, rfl, present, rfl, rfl, rfl⟩
    | ok _ =>
        right
        simp only [addMultiVatPeer, Option.map_map, Option.map_eq_some_iff] at step
        obtain ⟨⟨peerId, next⟩, allocated, same⟩ := step
        obtain ⟨rfl, rfl⟩ := Prod.mk.inj same
        obtain ⟨unused, -⟩ := allocateId_spec allocated
        exact ⟨rfl, rfl, peerId, present, unused, rfl, rfl, rfl⟩

/-- A creation whose bootstrap target is there is the shared one; another one fails first. -/
theorem MultiVatOp.run_creates {runtime : MultiVatRuntime Cap} {op : MultiVatOp Cap}
    {name : String} (creates : op.creates? = some name)
    : (op.targetKnown runtime = true
        ∧ ∃ started, op.starts = started.isOk
          ∧ op.run runtime
            = (startMultiVatPeer name started runtime).map
                (fun (result, runtime) => (result.map (fun _ => ()), runtime)))
      ∨ (op.targetKnown runtime = false
        ∧ ∃ text, op.run runtime = some (.error text, runtime)) := by
  cases op with
  | newMultiVatClient other started =>
      obtain rfl : other = name := Option.some.inj creates
      exact .inl ⟨rfl, started, rfl, rfl⟩
  | newMultiVatServerWithBootstrapFactory other started =>
      obtain rfl : other = name := Option.some.inj creates
      exact .inl ⟨rfl, started, rfl, rfl⟩
  | newMultiVatServer other bootstrapTarget started =>
      obtain rfl : other = name := Option.some.inj creates
      by_cases known : bootstrapTarget ∈ runtime.runtime.targets
      · refine .inl ⟨by simpa [targetKnown] using known, started, rfl, ?_⟩
        simp only [run, Rpc.newMultiVatServer, known, if_true]
      · refine .inr ⟨by simpa [targetKnown] using known, unknownTarget bootstrapTarget, ?_⟩
        simp only [run, Rpc.newMultiVatServer, known, if_false]
        rfl
  | releaseMultiVatPeer peerId => cases creates
  | targets op => cases creates

/-- What an operation does to peers and vats, by cases. -/
theorem MultiVatOp.run_cases {runtime after : MultiVatRuntime Cap} {op : MultiVatOp Cap}
    {result : Except String Unit} (step : op.run runtime = some (result, after))
    : (runtime.SamePeers after ∧ KeepsVats runtime op)
      ∨ (∃ name, runtime.VatAdded name after ∧ ¬ KeepsVats runtime op)
      ∨ (∃ name peerId, runtime.PeerAdded name peerId after ∧ KeepsVats runtime op)
      ∨ ∃ peerId peer, runtime.PeerReleased peerId peer after ∧ ¬ KeepsVats runtime op := by
  cases creates : op.creates? with
  | some name =>
      have noRelease : op.releases? = none := by
        cases op <;> first | rfl | cases creates
      rcases op.run_creates creates with ⟨known, started, starts, runs⟩ | ⟨unknown, text, runs⟩
      · rw [runs] at step
        obtain ⟨⟨answer, final⟩, begun, same⟩ := Option.map_eq_some_iff.mp step
        obtain ⟨-, rfl⟩ := Prod.mk.inj same
        rcases startMultiVatPeer_cases begun with
          ⟨present, -, rfl⟩ | ⟨failed, -, added⟩ | ⟨succeeded, -, peerId, added⟩
        · left
          refine ⟨⟨rfl, rfl, rfl⟩, by simp [noRelease], fun other creating _ absent => ?_⟩
          obtain rfl := Option.some.inj (creates.symm.trans creating)
          exact absurd present absent
        · right
          left
          refine ⟨name, added, fun keeps => ?_⟩
          have go := keeps.2 name creates known added.fresh
          rw [starts, failed] at go
          cases go
        · right
          right
          left
          exact ⟨name, peerId, added, by simp [noRelease], fun _ _ _ _ => starts.trans succeeded⟩
      · left
        rw [runs] at step
        obtain ⟨-, rfl⟩ := Prod.mk.inj (Option.some.inj step)
        refine ⟨⟨rfl, rfl, rfl⟩, by simp [noRelease], fun _ _ known => ?_⟩
        rw [unknown] at known
        cases known
  | none =>
      have noCreation : ∀ name ∈ op.creates?, op.targetKnown runtime = true →
          name ∉ runtime.genericVatNetwork.vats → op.starts = true := by
        simp [creates]
      cases op with
      | releaseMultiVatPeer peerId =>
          cases live : runtime.multiVatPeers.lookup peerId with
          | none =>
              left
              simp only [run, Rpc.releaseMultiVatPeer, live, Option.some.injEq,
                Prod.mk.injEq] at step
              obtain ⟨-, rfl⟩ := step
              refine ⟨⟨rfl, rfl, rfl⟩, fun other releasing => ?_, noCreation⟩
              obtain rfl := Option.some.inj releasing
              exact AList.lookup_eq_none.mp live
          | some peer =>
              right
              right
              right
              simp only [run, Rpc.releaseMultiVatPeer, live, Option.some.injEq,
                Prod.mk.injEq] at step
              obtain ⟨-, rfl⟩ := step
              refine ⟨peerId, peer, ⟨live, rfl, rfl, rfl⟩, fun keeps => keeps.1 peerId rfl ?_⟩
              exact AList.lookup_isSome.mp (by simp [live])
      | targets op =>
          left
          obtain ⟨_, _, same⟩ := Option.map_eq_some_iff.mp step
          obtain ⟨-, rfl⟩ := Prod.mk.inj same
          exact ⟨⟨rfl, rfl, rfl⟩, by simp [releases?], noCreation⟩
      | newMultiVatClient => cases creates
      | newMultiVatServer => cases creates
      | newMultiVatServerWithBootstrapFactory => cases creates

namespace MultiVatRuntime

/-- A live peer has the name. -/
def HasPeer (runtime : MultiVatRuntime Cap) (name : String) : Prop :=
  ∃ peerId peer, runtime.multiVatPeers.lookup peerId = some peer ∧ peer.name = name

/-- The registered vats are those of the live peers, the index gives the live peers by their
names, and creating a peer fails exactly under the name of a live one.
-/
structure MirrorsPeers (runtime : MultiVatRuntime Cap) : Prop where
  vats : ∀ name, name ∈ runtime.genericVatNetwork.vats ↔ runtime.HasPeer name
  names
    : ∀ name peerId, runtime.multiVatPeerIdsByName.lookup name = some peerId
        ↔ ∃ peer, runtime.multiVatPeers.lookup peerId = some peer ∧ peer.name = name
  creation
    : ∀ (op : MultiVatOp Cap) name result after,
        op.creates? = some name →
        op.targetKnown runtime = true →
        op.starts = true →
        op.run runtime = some (result, after) →
        (result.isOk = false ↔ runtime.HasPeer name)

/-- What every run keeps: the index is exact, and live peers have a vat. -/
structure Indexed (runtime : MultiVatRuntime Cap) : Prop where
  names
    : ∀ name peerId, runtime.multiVatPeerIdsByName.lookup name = some peerId
        ↔ ∃ peer, runtime.multiVatPeers.lookup peerId = some peer ∧ peer.name = name
  registered
    : ∀ peerId peer, runtime.multiVatPeers.lookup peerId = some peer →
        peer.name ∈ runtime.genericVatNetwork.vats

/-- Every registered vat is in the index. -/
def NoOrphan (runtime : MultiVatRuntime Cap) : Prop :=
  ∀ name ∈ runtime.genericVatNetwork.vats, name ∈ runtime.multiVatPeerIdsByName

variable {before after runtime : MultiVatRuntime Cap}

/-- The names in the index are those of the peers. -/
theorem Indexed.hasPeer_iff (indexed : runtime.Indexed) {name : String}
    : runtime.HasPeer name ↔ name ∈ runtime.multiVatPeerIdsByName := by
  rw [← AList.lookup_isSome, Option.isSome_iff_exists]
  exact exists_congr (fun peerId => (indexed.names name peerId).symm)

/-- They are names of vats. -/
theorem Indexed.mem_vats (indexed : runtime.Indexed) {name : String}
    (present : name ∈ runtime.multiVatPeerIdsByName)
    : name ∈ runtime.genericVatNetwork.vats := by
  obtain ⟨peerId, peer, live, rfl⟩ := indexed.hasPeer_iff.mpr present
  exact indexed.registered peerId peer live

/-- A creation that gets to its end fails exactly when the vat is registered already. -/
theorem run_fails_iff {op : MultiVatOp Cap} {name : String} {result : Except String Unit}
    (creates : op.creates? = some name) (known : op.targetKnown runtime = true)
    (starts : op.starts = true) (step : op.run runtime = some (result, after))
    : result.isOk = false ↔ name ∈ runtime.genericVatNetwork.vats := by
  rcases op.run_creates creates with ⟨-, started, outcome, runs⟩ | ⟨unknown, -⟩
  · rw [runs] at step
    obtain ⟨⟨answer, final⟩, begun, same⟩ := Option.map_eq_some_iff.mp step
    obtain ⟨rfl, -⟩ := Prod.mk.inj same
    have answers : (answer.map (fun _ => ())).isOk = answer.isOk := by
      cases answer <;> rfl
    rw [answers]
    rcases startMultiVatPeer_cases begun with
      ⟨present, failed, -⟩ | ⟨stopped, -, -⟩ | ⟨-, succeeded, peerId, added⟩
    · simp [failed, present]
    · rw [outcome, stopped] at starts
      cases starts
    · simp [succeeded, added.fresh]
  · rw [unknown] at known
    cases known

/-- Vats mirror peers exactly if none is left behind by its peer. -/
theorem mirrorsPeers_iff (indexed : runtime.Indexed)
    : runtime.MirrorsPeers ↔ runtime.NoOrphan := by
  constructor
  · intro mirror name present
    exact indexed.hasPeer_iff.mp ((mirror.vats name).mp present)
  · intro noOrphan
    have vats (name : String) : name ∈ runtime.genericVatNetwork.vats ↔ runtime.HasPeer name := by
      rw [indexed.hasPeer_iff]
      exact ⟨noOrphan name, indexed.mem_vats⟩
    refine ⟨vats, indexed.names, fun op name result final creates known starts step => ?_⟩
    exact (run_fails_iff creates known starts step).trans (vats name)

namespace Indexed

/-- The index stays right where the peers stay. -/
theorem samePeers (indexed : before.Indexed) (same : before.SamePeers after)
    : after.Indexed := by
  refine ⟨fun name peerId => ?_, fun peerId peer live => ?_⟩
  · rw [same.names, same.peers]
    exact indexed.names name peerId
  · rw [same.vats]
    rw [same.peers] at live
    exact indexed.registered peerId peer live

/-- It stays right with a further vat. -/
theorem vatAdded (indexed : before.Indexed) {name : String} (added : before.VatAdded name after)
    : after.Indexed := by
  refine ⟨fun other peerId => ?_, fun peerId peer live => ?_⟩
  · rw [added.names, added.peers]
    exact indexed.names other peerId
  · rw [added.vats]
    rw [added.peers] at live
    exact (AList.mem_insert _).mpr (.inr (indexed.registered peerId peer live))

/-- It stays right with a further peer. -/
theorem peerAdded (indexed : before.Indexed) {name : String} {peerId : UInt32}
    (added : before.PeerAdded name peerId after)
    : after.Indexed := by
  have unnamed {other : UInt32} {peer : MultiVatPeer}
      (live : before.multiVatPeers.lookup other = some peer)
      : peer.name ≠ name := by
    intro same
    exact added.fresh (same ▸ indexed.registered other peer live)
  refine ⟨fun other otherId => ?_, fun otherId peer live => ?_⟩
  · rw [added.names, added.peers]
    rcases eq_or_ne otherId peerId with rfl | own
    · by_cases same : other = name
      · subst same
        simp
      · rw [AList.lookup_insert_ne same, AList.lookup_insert]
        constructor
        · intro found
          obtain ⟨peer, live, -⟩ := (indexed.names other otherId).mp found
          exact absurd (AList.lookup_isSome.mp (by simp [live])) added.unused
        · intro present
          obtain ⟨peer, stored, named⟩ := present
          obtain rfl := Option.some.inj stored
          exact absurd named.symm same
    · rw [AList.lookup_insert_ne own]
      rcases eq_or_ne other name with rfl | same
      · rw [AList.lookup_insert]
        constructor
        · intro found
          exact absurd (Option.some.inj found).symm own
        · intro present
          obtain ⟨peer, live, named⟩ := present
          exact absurd named (unnamed live)
      · rw [AList.lookup_insert_ne same]
        exact indexed.names other otherId
  · rw [added.vats, AList.mem_insert]
    rw [added.peers] at live
    rcases eq_or_ne otherId peerId with rfl | own
    · rw [AList.lookup_insert] at live
      obtain rfl := Option.some.inj live
      exact .inl rfl
    · rw [AList.lookup_insert_ne own] at live
      exact .inr (indexed.registered otherId peer live)

/-- It stays right when a peer goes. -/
theorem peerReleased (indexed : before.Indexed) {peerId : UInt32} {peer : MultiVatPeer}
    (released : before.PeerReleased peerId peer after)
    : after.Indexed := by
  refine ⟨fun name otherId => ?_, fun otherId other live => ?_⟩
  · rw [released.names, released.peers]
    rcases eq_or_ne otherId peerId with rfl | own
    · rw [AList.lookup_erase]
      constructor
      · intro found
        by_cases same : name = peer.name
        · rw [same, AList.lookup_erase] at found
          cases found
        · rw [AList.lookup_erase_ne same] at found
          obtain ⟨stored, live, named⟩ := (indexed.names name otherId).mp found
          obtain rfl := Option.some.inj (released.live.symm.trans live)
          exact absurd named.symm same
      · intro present
        obtain ⟨_, gone, _⟩ := present
        cases gone
    · rw [AList.lookup_erase_ne own]
      by_cases same : name = peer.name
      · rw [same, AList.lookup_erase]
        constructor
        · intro found
          cases found
        · intro present
          have indexedOther := (indexed.names peer.name otherId).mpr present
          have indexedOwn := (indexed.names peer.name peerId).mpr ⟨peer, released.live, rfl⟩
          exact absurd (Option.some.inj (indexedOther.symm.trans indexedOwn)) own
      · rw [AList.lookup_erase_ne same]
        exact indexed.names name otherId
  · rw [released.vats]
    rw [released.peers] at live
    by_cases own : otherId = peerId
    · rw [own, AList.lookup_erase] at live
      cases live
    · rw [AList.lookup_erase_ne own] at live
      exact indexed.registered otherId other live

/-- Every operation keeps the index right, by its cases. -/
theorem run {op : MultiVatOp Cap} {result : Except String Unit} (indexed : before.Indexed)
    (step : op.run before = some (result, after))
    : after.Indexed := by
  rcases op.run_cases step with
    ⟨same, -⟩ | ⟨name, added, -⟩ | ⟨name, peerId, added, -⟩ | ⟨peerId, peer, released, -⟩
  · exact indexed.samePeers same
  · exact indexed.vatAdded added
  · exact indexed.peerAdded added
  · exact indexed.peerReleased released

end Indexed

/-- A vat that has lost its peer, or never got one, stays in the network for good. -/
theorem noOrphan_run_iff {op : MultiVatOp Cap} {result : Except String Unit}
    (indexed : before.Indexed) (step : op.run before = some (result, after))
    : after.NoOrphan ↔ before.NoOrphan ∧ KeepsVats before op := by
  rcases op.run_cases step with
    ⟨same, keeps⟩ | ⟨name, added, breaks⟩ | ⟨name, peerId, added, keeps⟩
    | ⟨peerId, peer, released, breaks⟩
  · rw [NoOrphan, same.vats, same.names]
    exact ⟨fun noOrphan => ⟨noOrphan, keeps⟩, And.left⟩
  · constructor
    · intro noOrphan
      have present := noOrphan name (added.vats ▸ (AList.mem_insert _).mpr (.inl rfl))
      rw [added.names] at present
      exact absurd (indexed.mem_vats present) added.fresh
    · exact fun held => absurd held.2 breaks
  · constructor
    · intro noOrphan
      refine ⟨fun other present => ?_, keeps⟩
      have kept := noOrphan other (added.vats ▸ (AList.mem_insert _).mpr (.inr present))
      rw [added.names, AList.mem_insert] at kept
      exact kept.resolve_left (fun same => added.fresh (same ▸ present))
    · intro held other present
      rw [added.vats, AList.mem_insert] at present
      rw [added.names, AList.mem_insert]
      exact present.imp_right (held.1 other)
  · constructor
    · intro noOrphan
      have present := noOrphan peer.name
        (released.vats ▸ indexed.registered peerId peer released.live)
      rw [released.names, AList.mem_erase] at present
      exact absurd rfl present.1
    · exact fun held => absurd held.2 breaks

end MultiVatRuntime

/-- A run ends with vats, index and live peers in agreement exactly when it released no live
peer and no creation in it failed after the registration of the vat.
-/
theorem vats_mirror_peers_iff {runtime : MultiVatRuntime Cap} {ops : List (MultiVatOp Cap)}
    (run : (multiVatSystem Cap).Run {} ops runtime)
    : runtime.MirrorsPeers ↔ ((multiVatSystem Cap).guard KeepsVats).Run {} ops runtime := by
  have start : ({} : MultiVatRuntime Cap).Indexed :=
    ⟨fun name peerId => by simp, fun peerId peer live => by simp at live⟩
  have keptStep {before after : MultiVatRuntime Cap} {op : MultiVatOp Cap}
      (step : (multiVatSystem Cap).step before op after) (indexed : before.Indexed)
      : after.Indexed := by
    obtain ⟨⟨result, final⟩, ran, rfl⟩ := Option.map_eq_some_iff.mp step
    exact indexed.run ran
  rw [mirrorsPeers_iff (run.preserves _ keptStep start)]
  apply run.holds_iff_guard MultiVatRuntime.Indexed MultiVatRuntime.NoOrphan start
  · exact fun name present => by simp at present
  · exact keptStep
  · intro before op after step indexed
    obtain ⟨⟨result, final⟩, ran, rfl⟩ := Option.map_eq_some_iff.mp step
    exact noOrphan_run_iff indexed ran

/-- Witness: two peers are created, and a third creation fails under a name in use. -/
theorem vats_mirror_peers_iff_created
    : ∃ runtime : MultiVatRuntime Nat, runtime.MirrorsPeers
        ∧ runtime.multiVatPeerIdsByName.lookup "b" = some 2 := by
  let ops : List (MultiVatOp Nat) :=
    [.newMultiVatClient "a" (.ok ()), .newMultiVatServerWithBootstrapFactory "b" (.ok ()),
      .newMultiVatClient "a" (.ok ()), .releaseMultiVatPeer 7]
  let checks (runtime : MultiVatRuntime Nat) : Bool :=
    decide (runtime.multiVatPeerIdsByName.lookup "b" = some 2)
  have replayed
      : ∃ runtime, ((multiVatSystem Nat).guard KeepsVats).Reachable runtime
          ∧ checks runtime = true :=
    Transition.exists_guarded_of_replay _ ops checks (by decide)
  obtain ⟨runtime, ⟨first, labels, start, run⟩, checked⟩ := replayed
  subst start
  exact ⟨runtime, (vats_mirror_peers_iff run.unguard).mpr run, of_decide_eq_true checked⟩

/-- The vat of a released peer stays registered, so that its name cannot be used again. -/
theorem released_name_stays_taken
    : ¬ ∀ runtime : MultiVatRuntime Nat, (multiVatSystem Nat).Reachable runtime →
        runtime.MirrorsPeers := by
  intro always
  let ops : List (MultiVatOp Nat) := [.newMultiVatClient "a" (.ok ()), .releaseMultiVatPeer 1]
  let checks (runtime : MultiVatRuntime Nat) : Bool :=
    decide ("a" ∈ runtime.genericVatNetwork.vats ∧ runtime.multiVatPeers.keys = [])
  have replayed
      : ∃ runtime, (multiVatSystem Nat).Reachable runtime ∧ checks runtime = true :=
    Transition.exists_reachable_of_replay ops checks (by decide)
  obtain ⟨runtime, reached, checked⟩ := replayed
  obtain ⟨registered, empty⟩ := of_decide_eq_true checked
  obtain ⟨peerId, peer, live, -⟩ := ((always runtime reached).vats "a").mp registered
  have member : peerId ∈ runtime.multiVatPeers.keys :=
    AList.mem_keys.mp (AList.lookup_isSome.mp (by simp [live]))
  simp [empty] at member

end Runs

end Capnp.Rpc
