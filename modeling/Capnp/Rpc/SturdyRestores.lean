import Capnp.Rpc.PeerOwners
import Capnp.Rpc.SturdyRefs

/-! Runs of calls about sturdy references, with the log of what they did. A restore gives what
was last published, as long as no step drops the last owner of a published capability.
-/

namespace Capnp.Rpc

open MultiVatRuntime

-----------------------------------------------------------------------------------------
-- Calls and their log
-----------------------------------------------------------------------------------------

variable {Client : Type}

/-- What happened to the references of a host, by its name. -/
inductive SturdyEvent (Client : Type) where
  | published (host : String) (objectId : List UInt8) (cap : PeerCap Client)
  | unpublished (host : String) (objectId : List UInt8)
  | cleared (host : String)

def SturdyEvent.host : SturdyEvent Client → String
  | .published host _ _ => host
  | .unpublished host _ => host
  | .cleared host => host

/-- The capability last published for a host under an object id and neither unpublished nor
cleared since, in a log with the newest event first.
-/
def lastPublished (host : String) (objectId : List UInt8)
    : List (SturdyEvent Client) → Option (PeerCap Client)
  | [] => none
  | .published other otherId cap :: older =>
      if other = host ∧ otherId = objectId then some cap else lastPublished host objectId older
  | .unpublished other otherId :: older =>
      if other = host ∧ otherId = objectId then none else lastPublished host objectId older
  | .cleared other :: older =>
      if other = host then none else lastPublished host objectId older

/-- The runtime with the log of its successful calls, newest first. -/
structure SturdyRuntime (Client : Type) where
  multiVat : MultiVatRuntime (PeerCap Client) := {}
  log : List (SturdyEvent Client) := []

/-- The calls about sturdy references, and those on peers and targets. -/
inductive SturdyOp (Client : Type) where
  | peers (op : MultiVatOp Client)
  | publish (hostPeerId : UInt32) (objectId : List UInt8) (targetId : UInt32)
  | unpublish (hostPeerId : UInt32) (objectId : List UInt8)
  | clear (hostPeerId : UInt32)
  | restore (sourcePeerId : UInt32) (hostVatId : LeanVatId) (objectId : List UInt8)

/-- A call that throws leaves the state; one that succeeds is logged under the host's name. -/
def SturdyRuntime.record (state : SturdyRuntime Client) (hostPeerId : UInt32)
    (result : Except String (MultiVatRuntime (PeerCap Client)))
    (event : String → Option (SturdyEvent Client))
    : SturdyRuntime Client :=
  match result, state.multiVat.multiVatPeers.lookup hostPeerId with
  | .ok after, some host => { multiVat := after, log := (event host.name).toList ++ state.log }
  | _, _ => state

def SturdyOp.run (state : SturdyRuntime Client) : SturdyOp Client → Option (SturdyRuntime Client)
  | .peers op =>
      ((op.withPeer state.multiVat.runtime).run state.multiVat).map
        (fun (_, after) => { state with multiVat := after })
  | .publish hostPeerId objectId targetId =>
      some
        (state.record hostPeerId
          (multiVatPublishSturdyRef hostPeerId objectId targetId state.multiVat)
          (fun host =>
            (state.multiVat.runtime.targets.lookup targetId).map (.published host objectId)))
  | .unpublish hostPeerId objectId =>
      some
        (state.record hostPeerId (multiVatUnpublishSturdyRef hostPeerId objectId state.multiVat)
          (fun host => some (.unpublished host objectId)))
  | .clear hostPeerId =>
      some
        (state.record hostPeerId (multiVatClearPublishedSturdyRefs hostPeerId state.multiVat)
          (fun host => some (.cleared host)))
  | .restore sourcePeerId hostVatId objectId =>
      (multiVatRestoreSturdyRef sourcePeerId hostVatId objectId state.multiVat).map
        (fun (_, after) => { state with multiVat := after })

def sturdySystem (Client : Type) : Transition.System (SturdyRuntime Client) (SturdyOp Client) :=
  .ofFunction {} (fun state op => op.run state)

/-- A restore fails unless a live peer has the name and the object id is published for it, and
gives a new target for the capability last published there, whose peer is alive.
-/
structure SturdyRuntime.Restores (state : SturdyRuntime Client) (sourcePeerId : UInt32)
    (hostVatId : LeanVatId) (objectId : List UInt8)
    : Prop where
  fails
    : ¬ state.multiVat.HasPeer hostVatId.host
        ∨ lastPublished hostVatId.host objectId state.log = none →
      ∃ reason,
        multiVatRestoreSturdyRef sourcePeerId hostVatId objectId state.multiVat
        = some (.error reason, state.multiVat)
  returns
    : state.multiVat.runtime.targets.keys.length < 2 ^ 32 →
        (multiVatRestoreSturdyRef sourcePeerId hostVatId objectId state.multiVat).isSome
  succeeds
    : ∀ cap result after,
        state.multiVat.HasPeer hostVatId.host →
        lastPublished hostVatId.host objectId state.log = some cap →
        multiVatRestoreSturdyRef sourcePeerId hostVatId objectId state.multiVat
          = some (result, after) →
        ∃ targetId,
          result = .ok targetId
          ∧ targetId ∉ state.multiVat.runtime.targets
          ∧ after.runtime.targets = state.multiVat.runtime.targets.insert targetId cap
          ∧ ∀ peer ∈ cap.peer?, PeerAlive after.runtime peer

def SturdyRuntime.RestoresPublished (state : SturdyRuntime Client) : Prop :=
  ∀ sourcePeerId ∈ state.multiVat.multiVatPeers, ∀ hostVatId objectId,
    state.Restores sourcePeerId hostVatId objectId

-----------------------------------------------------------------------------------------
-- The references are those of the log
-----------------------------------------------------------------------------------------

variable {state : SturdyRuntime Client} {before after : MultiVatRuntime (PeerCap Client)}

/-- What every run keeps: a live peer's references are what the log says of its name, and the
log names registered vats only.
-/
structure SturdyRuntime.Recorded (state : SturdyRuntime Client) : Prop where
  indexed : state.multiVat.Indexed
  released
    : ∀ hostPeerId objectId,
        hostPeerId ∉ state.multiVat.multiVatPeers →
        state.multiVat.sturdyRef? hostPeerId objectId = none
  hosts : ∀ event ∈ state.log, event.host ∈ state.multiVat.genericVatNetwork.vats
  logged
    : ∀ hostPeerId peer objectId,
        state.multiVat.multiVatPeers.lookup hostPeerId = some peer →
        state.multiVat.sturdyRef? hostPeerId objectId
        = lastPublished peer.name objectId state.log

/-- One more event of a live peer, which changes the references that it names. -/
structure SturdyRuntime.Updates (state after : SturdyRuntime Client) (hostPeerId : UInt32)
    (host : MultiVatPeer) (named : List UInt8 → Prop) [DecidablePred named]
    (cap? : Option (PeerCap Client)) : Prop where
  live : state.multiVat.multiVatPeers.lookup hostPeerId = some host
  same : state.multiVat.SamePeers after.multiVat
  runtime : after.multiVat.runtime = state.multiVat.runtime
  refs
    : ∀ other objectId,
        after.multiVat.sturdyRef? other objectId
        = if other = hostPeerId ∧ named objectId then cap?
          else state.multiVat.sturdyRef? other objectId
  event
    : ∃ event : SturdyEvent Client, event.host = host.name ∧ after.log = event :: state.log
  last
    : ∀ name objectId,
        lastPublished name objectId after.log
        = if name = host.name ∧ named objectId then cap?
          else lastPublished name objectId state.log

/-- Nothing is published under a name that the log does not mention. -/
theorem lastPublished_eq_none {host : String} {objectId : List UInt8}
    {log : List (SturdyEvent Client)} (unnamed : ∀ event ∈ log, event.host ≠ host)
    : lastPublished host objectId log = none := by
  induction log with
  | nil => rfl
  | cons event older ih =>
      have rest := ih (fun other member => unnamed other (List.mem_cons_of_mem _ member))
      have own := unnamed event List.mem_cons_self
      cases event with
      | published other otherId cap => rwa [lastPublished, if_neg (fun same => own same.1)]
      | unpublished other otherId => rwa [lastPublished, if_neg (fun same => own same.1)]
      | cleared other => exact (if_neg own).trans rest

namespace SturdyRuntime.Recorded

/-- The log is empty at first. -/
theorem initial : SturdyRuntime.Recorded ({} : SturdyRuntime Client) where
  indexed := ⟨fun name peerId => by simp, fun peerId peer live => by simp at live⟩
  released := fun hostPeerId objectId _ => rfl
  hosts := by simp
  logged := fun hostPeerId peer objectId live => by simp at live

/-- What happens to peers keeps the references those of the log. -/
theorem peers (recorded : state.Recorded) (indexed : after.Indexed)
    (effect : RefsEffect state.multiVat after)
    : SturdyRuntime.Recorded { state with multiVat := after } := by
  have kept (refs : after.sturdyRefs = state.multiVat.sturdyRefs) (hostPeerId : UInt32)
      (objectId : List UInt8)
      : after.sturdyRef? hostPeerId objectId = state.multiVat.sturdyRef? hostPeerId objectId := by
    rw [sturdyRef?, refs, sturdyRef?]
  cases effect with
  | same peers refs =>
      refine ⟨indexed, fun hostPeerId objectId absent => ?_, fun event member => ?_,
        fun hostPeerId peer objectId live => ?_⟩
      · rw [kept refs]
        exact recorded.released hostPeerId objectId (peers.peers ▸ absent)
      · exact peers.vats ▸ recorded.hosts event member
      · rw [kept refs]
        exact recorded.logged hostPeerId peer objectId (peers.peers ▸ live)
  | vatAdded name added refs =>
      refine ⟨indexed, fun hostPeerId objectId absent => ?_, fun event member => ?_,
        fun hostPeerId peer objectId live => ?_⟩
      · rw [kept refs]
        exact recorded.released hostPeerId objectId (added.peers ▸ absent)
      · exact added.vats ▸ (AList.mem_insert _).mpr (.inr (recorded.hosts event member))
      · rw [kept refs]
        exact recorded.logged hostPeerId peer objectId (added.peers ▸ live)
  | peerAdded name peerId added refs =>
      refine ⟨indexed, fun hostPeerId objectId absent => ?_, fun event member => ?_,
        fun hostPeerId peer objectId live => ?_⟩
      · rw [kept refs]
        rw [added.peers, AList.mem_insert, not_or] at absent
        exact recorded.released hostPeerId objectId absent.2
      · exact added.vats ▸ (AList.mem_insert _).mpr (.inr (recorded.hosts event member))
      · rw [kept refs]
        rw [added.peers] at live
        rcases eq_or_ne hostPeerId peerId with rfl | other
        · -- No vat had the name of the new peer, so nothing was logged under it.
          obtain rfl := Option.some.inj ((AList.lookup_insert _).symm.trans live)
          rw [recorded.released hostPeerId objectId added.unused, lastPublished_eq_none]
          intro event member same
          have host : event.host = name := same
          exact added.fresh (host ▸ recorded.hosts event member)
        · rw [AList.lookup_insert_ne other] at live
          exact recorded.logged hostPeerId peer objectId live
  | peerReleased peerId released gone refs =>
      refine ⟨indexed, fun hostPeerId objectId absent => ?_, fun event member => ?_,
        fun hostPeerId peer objectId live => ?_⟩
      · rw [sturdyRef?_erase refs]
        split_ifs with own
        · rfl
        · rw [gone.peers, AList.mem_erase, not_and] at absent
          exact recorded.released hostPeerId objectId (absent own)
      · exact gone.vats ▸ recorded.hosts event member
      · rw [gone.peers] at live
        rcases eq_or_ne hostPeerId peerId with rfl | other
        · rw [AList.lookup_erase] at live
          cases live
        · rw [AList.lookup_erase_ne other] at live
          rw [sturdyRef?_erase refs, if_neg other]
          exact recorded.logged hostPeerId peer objectId live

/-- So does an event of a live peer. -/
theorem updated (recorded : state.Recorded) {named : List UInt8 → Prop} [DecidablePred named]
    {cap? : Option (PeerCap Client)} {after : SturdyRuntime Client} {hostPeerId : UInt32}
    {host : MultiVatPeer} (update : state.Updates after hostPeerId host named cap?)
    : after.Recorded := by
  obtain ⟨live, same, -, refs, ⟨event, own, log⟩, last⟩ := update
  refine ⟨recorded.indexed.samePeers same, fun other objectId absent => ?_,
    fun logged member => ?_, fun other peer objectId found => ?_⟩
  · have gone := same.peers ▸ absent
    have different : other ≠ hostPeerId :=
      fun equal => gone (equal ▸ AList.lookup_isSome.mp (by simp [live]))
    rw [refs, if_neg (fun both => different both.1)]
    exact recorded.released other objectId gone
  · rw [same.vats]
    rw [log] at member
    rcases List.mem_cons.mp member with rfl | older
    · exact own ▸ recorded.indexed.registered hostPeerId host live
    · exact recorded.hosts logged older
  · have known := same.peers ▸ found
    have names : other = hostPeerId ↔ peer.name = host.name := by
      constructor
      · rintro rfl
        rw [Option.some.inj (known.symm.trans live)]
      · intro equal
        have first := (recorded.indexed.names host.name other).mpr ⟨peer, known, equal⟩
        have second := (recorded.indexed.names host.name hostPeerId).mpr ⟨host, live, rfl⟩
        exact Option.some.inj (first.symm.trans second)
    rw [refs, last, recorded.logged other peer objectId known]
    simp only [names]

end SturdyRuntime.Recorded

-----------------------------------------------------------------------------------------
-- The peers of the references stay alive
-----------------------------------------------------------------------------------------

/-- The capabilities in the store. -/
def SturdyRuntime.published (state : SturdyRuntime Client) : List (PeerCap Client) :=
  (Table.values state.multiVat.sturdyRefs).flatMap Table.values

/-- No target is dropped as the last holder of a peer that a published capability goes through,
and no capability is published for a live host whose own peer is gone.
-/
def KeepsOwners (state : SturdyRuntime Client) : SturdyOp Client → Prop
  | .peers (.targets op) =>
      ∀ cap ∈ state.published, ∀ peer ∈ cap.peer?,
        sparesPeer peer state.multiVat.runtime
          ((op.withPeer state.multiVat.runtime).gone state.multiVat.runtime)
  | .publish hostPeerId _ targetId =>
      hostPeerId ∈ state.multiVat.multiVatPeers →
        ∀ cap ∈ state.multiVat.runtime.targets.lookup targetId, ∀ peer ∈ cap.peer?,
          PeerAlive state.multiVat.runtime peer
  | _ => True

instance (state : SturdyRuntime Client) : (op : SturdyOp Client) → Decidable (KeepsOwners state op)
  | .peers (.targets _) => inferInstanceAs (Decidable (∀ _ ∈ _, _))
  | .publish hostPeerId _ targetId =>
      inferInstanceAs
        (Decidable
          (hostPeerId ∈ state.multiVat.multiVatPeers →
            ∀ cap ∈ state.multiVat.runtime.targets.lookup targetId, ∀ peer ∈ cap.peer?,
              PeerAlive state.multiVat.runtime peer))
  | .peers (.newMultiVatClient _ _) => .isTrue trivial
  | .peers (.newMultiVatServer _ _ _) => .isTrue trivial
  | .peers (.newMultiVatServerWithBootstrapFactory _ _) => .isTrue trivial
  | .peers (.releaseMultiVatPeer _) => .isTrue trivial
  | .unpublish _ _ => .isTrue trivial
  | .clear _ => .isTrue trivial
  | .restore _ _ _ => .isTrue trivial

/-- The peer of every published capability is alive. -/
def SturdyRuntime.OwnersAlive (state : SturdyRuntime Client) : Prop :=
  ∀ cap ∈ state.published, ∀ peer ∈ cap.peer?, PeerAlive state.multiVat.runtime peer

/-- The capabilities in the store by host and object id. -/
theorem SturdyRuntime.mem_published {cap : PeerCap Client}
    : cap ∈ state.published
      ↔ ∃ hostPeerId objectId, state.multiVat.sturdyRef? hostPeerId objectId = some cap := by
  simp only [published, List.mem_flatMap, Table.mem_values_iff, MultiVatRuntime.sturdyRef?,
    Option.bind_eq_some_iff]
  constructor
  · rintro ⟨hostRefs, ⟨hostPeerId, found⟩, objectId, stored⟩
    exact ⟨hostPeerId, objectId, hostRefs, found, stored⟩
  · rintro ⟨hostPeerId, objectId, hostRefs, found, stored⟩
    exact ⟨hostRefs, ⟨hostPeerId, found⟩, objectId, stored⟩

-----------------------------------------------------------------------------------------
-- What each operation keeps
-----------------------------------------------------------------------------------------

/-- A call throws and changes nothing, or succeeds and is logged. -/
theorem SturdyRuntime.record_cases (state : SturdyRuntime Client) (hostPeerId : UInt32)
    (result : Except String (MultiVatRuntime (PeerCap Client)))
    (event : String → Option (SturdyEvent Client))
    : state.record hostPeerId result event = state
      ∨ ∃ after host,
          result = .ok after
          ∧ state.multiVat.multiVatPeers.lookup hostPeerId = some host
          ∧ state.record hostPeerId result event
            = { multiVat := after, log := (event host.name).toList ++ state.log } := by
  unfold record
  split
  · next after host live => exact .inr ⟨after, host, rfl, live, rfl⟩
  · exact .inl rfl

/-- A call about the references of a host that does not throw logs one event. -/
theorem SturdyRuntime.record_publish (state : SturdyRuntime Client)
    (hostPeerId targetId : UInt32) (objectId : List UInt8) {after : SturdyRuntime Client}
    (step : SturdyOp.run state (.publish hostPeerId objectId targetId) = some after)
    : after = state
      ∨ ∃ host, state.Updates after hostPeerId host (fun otherId => otherId = objectId)
          (state.multiVat.runtime.targets.lookup targetId) := by
  obtain rfl := Option.some.inj step
  refine (state.record_cases hostPeerId _ _).imp id ?_
  rintro ⟨multiVat, host, published, live, same⟩
  have refs (other : UInt32) (otherId : List UInt8) :=
    @sturdyRef?_publish _ _ _ _ _ other _ otherId published
  obtain ⟨cap, found, rfl⟩ := publish_ok published
  rw [same, found]
  rw [found] at refs
  refine ⟨host, live, ⟨rfl, rfl, rfl⟩, rfl, refs, ⟨_, rfl, rfl⟩, fun name otherId => ?_⟩
  exact if_congr (and_congr eq_comm eq_comm) rfl rfl

/-- Unpublishing takes one reference away. -/
theorem SturdyRuntime.record_unpublish (state : SturdyRuntime Client) (hostPeerId : UInt32)
    (objectId : List UInt8) {after : SturdyRuntime Client}
    (step : SturdyOp.run state (.unpublish hostPeerId objectId) = some after)
    : after = state
      ∨ ∃ host, state.Updates after hostPeerId host (fun otherId => otherId = objectId) none := by
  obtain rfl := Option.some.inj step
  refine (state.record_cases hostPeerId _ _).imp id ?_
  rintro ⟨multiVat, host, unpublished, live, same⟩
  have refs (other : UInt32) (otherId : List UInt8) :=
    @sturdyRef?_unpublish _ _ _ _ other _ otherId unpublished
  obtain ⟨hostRefs, -, rfl⟩ := unpublish_ok unpublished
  rw [same]
  refine ⟨host, live, ⟨rfl, rfl, rfl⟩, rfl, refs, ⟨_, rfl, rfl⟩, fun name otherId => ?_⟩
  exact if_congr (and_congr eq_comm eq_comm) rfl rfl

/-- Clearing takes all references of a host away. -/
theorem SturdyRuntime.record_clear (state : SturdyRuntime Client) (hostPeerId : UInt32)
    {after : SturdyRuntime Client}
    (step : SturdyOp.run state (.clear hostPeerId) = some after)
    : after = state
      ∨ ∃ host, state.Updates after hostPeerId host (fun _ => True) none := by
  obtain rfl := Option.some.inj step
  refine (state.record_cases hostPeerId _ _).imp id ?_
  rintro ⟨multiVat, host, cleared, live, same⟩
  obtain rfl := clear_ok cleared
  rw [same]
  refine ⟨host, live, ⟨rfl, rfl, rfl⟩, rfl, fun other otherId => ?_, ⟨_, rfl, rfl⟩,
    fun name otherId => ?_⟩
  · rw [sturdyRef?_erase rfl]
    exact if_congr (and_iff_left trivial).symm rfl rfl
  · exact if_congr (eq_comm.trans (and_iff_left trivial).symm) rfl rfl

/-- Every call keeps the references those of the log, by cases. -/
theorem SturdyOp.run_recorded {op : SturdyOp Client} {after : SturdyRuntime Client}
    (step : op.run state = some after) (recorded : state.Recorded)
    : after.Recorded := by
  cases op with
  | peers op =>
      obtain ⟨⟨result, multiVat⟩, ran, rfl⟩ := Option.map_eq_some_iff.mp step
      exact recorded.peers (recorded.indexed.run ran) (MultiVatOp.run_refs ran).1
  | publish hostPeerId objectId targetId =>
      rcases state.record_publish hostPeerId targetId objectId step with rfl | ⟨host, update⟩
      · exact recorded
      · exact recorded.updated update
  | unpublish hostPeerId objectId =>
      rcases state.record_unpublish hostPeerId objectId step with rfl | ⟨host, update⟩
      · exact recorded
      · exact recorded.updated update
  | clear hostPeerId =>
      rcases state.record_clear hostPeerId step with rfl | ⟨host, update⟩
      · exact recorded
      · exact recorded.updated update
  | restore sourcePeerId hostVatId objectId =>
      obtain ⟨⟨result, multiVat⟩, ran, rfl⟩ := Option.map_eq_some_iff.mp step
      rcases restore_cases ran with ⟨-, -, -, rfl⟩ | ⟨cap, targetId, targets, -, -, -, rfl⟩
      · exact recorded
      · exact recorded.peers (recorded.indexed.samePeers ⟨rfl, rfl, rfl⟩)
          (.same ⟨rfl, rfl, rfl⟩ rfl)

/-- An event that takes references away leaves those that were there. -/
theorem SturdyRuntime.Updates.published {named : List UInt8 → Prop} [DecidablePred named]
    {cap? : Option (PeerCap Client)} {after : SturdyRuntime Client} {hostPeerId : UInt32}
    {host : MultiVatPeer} (update : state.Updates after hostPeerId host named cap?)
    (taken : cap? = none) {otherId : UInt32} {objectId : List UInt8} {cap : PeerCap Client}
    (found : after.multiVat.sturdyRef? otherId objectId = some cap)
    : state.multiVat.sturdyRef? otherId objectId = some cap := by
  rw [update.refs, taken] at found
  split_ifs at found
  exact found

/-- What happens to peers publishes nothing. -/
theorem RefsEffect.published (effect : RefsEffect before after) {hostPeerId : UInt32}
    {objectId : List UInt8} {cap : PeerCap Client}
    (found : after.sturdyRef? hostPeerId objectId = some cap)
    : before.sturdyRef? hostPeerId objectId = some cap := by
  cases effect with
  | same _ refs => rwa [sturdyRef?, refs] at found
  | vatAdded _ _ refs => rwa [sturdyRef?, refs] at found
  | peerAdded _ _ _ refs => rwa [sturdyRef?, refs] at found
  | peerReleased peerId _ _ refs =>
      rw [sturdyRef?_erase refs] at found
      split_ifs at found
      exact found

/-- While no step drops the last owner of a published capability, its peer stays alive. -/
theorem SturdyOp.run_ownersAlive {op : SturdyOp Client} {after : SturdyRuntime Client}
    (step : op.run state = some after) (keeps : KeepsOwners state op) (alive : state.OwnersAlive)
    : after.OwnersAlive := by
  intro cap member peer owned
  obtain ⟨otherId, otherKey, found⟩ := SturdyRuntime.mem_published.mp member
  have held (before : state.multiVat.sturdyRef? otherId otherKey = some cap)
      : PeerAlive state.multiVat.runtime peer :=
    alive cap (SturdyRuntime.mem_published.mpr ⟨otherId, otherKey, before⟩) peer owned
  cases op with
  | peers op =>
      obtain ⟨⟨result, multiVat⟩, ran, rfl⟩ := Option.map_eq_some_iff.mp step
      obtain ⟨refs, same | ⟨targetOp, answer, isTargets, targets⟩⟩ := MultiVatOp.run_refs ran
      · exact same ▸ held (refs.published found)
      · have published : cap ∈ state.published :=
          SturdyRuntime.mem_published.mpr ⟨otherId, otherKey, refs.published found⟩
        cases op with
        | targets op =>
            obtain rfl := MultiVatOp.targets.inj isTargets
            rcases TargetOp.run_gone targets with added | dropped
            · exact (held (refs.published found)).kept added
            · rw [dropped]
              exact (held (refs.published found)).dropRequestCaps (keeps cap published peer owned)
        | newMultiVatClient => cases isTargets
        | newMultiVatServer => cases isTargets
        | newMultiVatServerWithBootstrapFactory => cases isTargets
        | releaseMultiVatPeer => cases isTargets
  | publish hostPeerId objectId targetId =>
      rcases state.record_publish hostPeerId targetId objectId step with rfl | ⟨host, update⟩
      · exact held found
      · rw [update.runtime]
        rw [update.refs] at found
        split_ifs at found
        · have live : hostPeerId ∈ state.multiVat.multiVatPeers :=
            AList.lookup_isSome.mp (by simp [update.live])
          exact keeps live cap found peer owned
        · exact held found
  | unpublish hostPeerId objectId =>
      rcases state.record_unpublish hostPeerId objectId step with rfl | ⟨host, update⟩
      · exact held found
      · exact update.runtime ▸ held (update.published rfl found)
  | clear hostPeerId =>
      rcases state.record_clear hostPeerId step with rfl | ⟨host, update⟩
      · exact held found
      · exact update.runtime ▸ held (update.published rfl found)
  | restore sourcePeerId hostVatId objectId =>
      obtain ⟨⟨result, multiVat⟩, ran, rfl⟩ := Option.map_eq_some_iff.mp step
      rcases restore_cases ran with
        ⟨-, -, -, rfl⟩ | ⟨restored, targetId, targets, -, -, adding, rfl⟩
      · exact held found
      · exact (held found).addTarget adding

/-- What a restore finds is what the log says of the host's name. -/
theorem SturdyRuntime.Recorded.findSturdyRef (recorded : state.Recorded) {sourcePeerId : UInt32}
    (source : sourcePeerId ∈ state.multiVat.multiVatPeers) (hostVatId : LeanVatId)
    (objectId : List UInt8) (cap : PeerCap Client)
    : Rpc.findSturdyRef sourcePeerId hostVatId objectId state.multiVat = .ok cap
      ↔ state.multiVat.HasPeer hostVatId.host
        ∧ lastPublished hostVatId.host objectId state.log = some cap := by
  obtain ⟨peer, live⟩ := Option.isSome_iff_exists.mp (AList.lookup_isSome.mpr source)
  have known : requireMultiVatPeer sourcePeerId state.multiVat = .ok peer :=
    requireMultiVatPeer_ok_iff.mpr live
  rw [recorded.indexed.hasPeer_iff]
  unfold Rpc.findSturdyRef requireMultiVatPeerByHost
  simp only [known, bind, Except.bind]
  cases named : state.multiVat.multiVatPeerIdsByName.lookup hostVatId.host with
  | none => simp [AList.lookup_eq_none.mp named]
  | some hostId =>
      obtain ⟨host, hosted, name⟩ := (recorded.indexed.names _ hostId).mp named
      have present : hostVatId.host ∈ state.multiVat.multiVatPeerIdsByName :=
        AList.lookup_isSome.mp (by simp [named])
      have refs := recorded.logged hostId host objectId hosted
      rw [name, MultiVatRuntime.sturdyRef?] at refs
      have indexed := (recorded.indexed.names host.name hostId).mpr ⟨host, hosted, rfl⟩
      simp only [requireMultiVatPeer_ok_iff.mpr hosted, indexed, present, true_and, ← refs]
      cases state.multiVat.sturdyRefs.lookup hostId with
      | none => simp
      | some hostRefs =>
          have key : hostRefs.lookup (sturdyObjectKey objectId) = hostRefs.lookup objectId := by
            rw [sturdyObjectKey_eq]
          simp only [key, Option.bind_some]
          cases hostRefs.lookup objectId <;> simp

/-- With the references of the log and their peers alive, restores do what they should. -/
theorem SturdyRuntime.Recorded.restoresPublished (recorded : state.Recorded)
    (alive : state.OwnersAlive)
    : state.RestoresPublished := by
  intro sourcePeerId source hostVatId objectId
  have finds := recorded.findSturdyRef source hostVatId objectId
  refine ⟨fun absent => ?_, fun room => ?_, fun cap result after host published step => ?_⟩
  · cases found : Rpc.findSturdyRef sourcePeerId hostVatId objectId state.multiVat with
    | error reason => exact ⟨reason, by simp only [multiVatRestoreSturdyRef, found]⟩
    | ok cap =>
        obtain ⟨host, published⟩ := (finds cap).mp found
        rcases absent with noHost | noRef
        · exact absurd host noHost
        · rw [noRef] at published
          cases published
  · unfold multiVatRestoreSturdyRef
    split
    · rfl
    · simp only [addTarget, Option.isSome_map]
      exact allocateId_isSome _ _ room
  · have found := (finds cap).mpr ⟨host, published⟩
    rcases restore_cases step with
      ⟨reason, failed, -, -⟩ | ⟨restored, targetId, targets, succeeded, rfl, adding, rfl⟩
    · rw [found] at failed
      cases failed
    · obtain rfl := Except.ok.inj (found.symm.trans succeeded)
      obtain ⟨fresh, same⟩ := addTarget_spec adding
      refine ⟨targetId, rfl, fresh, by rw [same], fun peer owned => ?_⟩
      obtain ⟨hostId, hostPeer, hosted, name⟩ := host
      have stored := recorded.logged hostId hostPeer objectId hosted
      rw [name, published] at stored
      have published := SturdyRuntime.mem_published.mpr ⟨hostId, objectId, stored⟩
      exact (alive cap published peer owned).addTarget adding

/-- In every state of a run that drops no last owner of a published capability, a restore gives
what was last published, with its peer alive, and fails where nothing is published.
-/
theorem sturdyRefs_restorable {state : SturdyRuntime Client}
    (reached : ((sturdySystem Client).guard KeepsOwners).Reachable state)
    : state.RestoresPublished := by
  have invariant : state.Recorded ∧ state.OwnersAlive := by
    apply reached.invariant (fun state => state.Recorded ∧ state.OwnersAlive)
    · intro first start
      subst start
      refine ⟨.initial, ?_⟩
      exact fun cap member => by cases member
    · intro before op after step held
      obtain ⟨keeps, step⟩ := step
      exact ⟨op.run_recorded step held.1, op.run_ownersAlive step keeps held.2⟩
  exact invariant.1.restoresPublished invariant.2

/-- Witness: a published capability whose first target is released while another holds its peer.
-/
theorem sturdyRefs_restorable_retained
    : ∃ state : SturdyRuntime Nat,
        1 ∉ state.multiVat.runtime.targets
        ∧ lastPublished "host" [0] state.log = some { client := 7, peer? := some (.network 0) }
        ∧ state.RestoresPublished := by
  let ops : List (SturdyOp Nat) :=
    [.peers (.targets (.connect (.ok 7))), .peers (.newMultiVatServer "host" 1 (.ok ())),
      .publish 1 [0] 1, .peers (.targets (.retain 1)), .peers (.targets (.release 1))]
  let checks (state : SturdyRuntime Nat) : Bool :=
    decide (1 ∉ state.multiVat.runtime.targets
      ∧ lastPublished "host" [0] state.log = some { client := 7, peer? := some (.network 0) })
  have replayed
      : ∃ state, ((sturdySystem Nat).guard KeepsOwners).Reachable state ∧ checks state = true :=
    Transition.exists_guarded_of_replay _ ops checks (by decide)
  obtain ⟨state, reached, checked⟩ := replayed
  obtain ⟨released, published⟩ := of_decide_eq_true checked
  exact ⟨state, released, published, sturdyRefs_restorable reached⟩

/-- A connected capability is published and its only target released: the restored target goes
through a peer that is gone.
-/
theorem not_sturdyRefs_restorable
    : ¬ ∀ state : SturdyRuntime Nat, (sturdySystem Nat).Reachable state →
        state.RestoresPublished := by
  intro always
  let ops : List (SturdyOp Nat) :=
    [.peers (.targets (.connect (.ok 7))), .peers (.newMultiVatServer "host" 1 (.ok ())),
      .publish 1 [0] 1, .peers (.targets (.release 1))]
  let restored (state : SturdyRuntime Nat) :=
    multiVatRestoreSturdyRef 1 ⟨"host", false⟩ [0] state.multiVat
  let checks (state : SturdyRuntime Nat) : Bool :=
    decide (state.multiVat.multiVatPeers.lookup 1 = some { name := "host" }
        ∧ lastPublished "host" [0] state.log = some { client := 7, peer? := some (.network 0) })
      && (restored state).any
        (fun (_, after) => decide (Table.values after.runtime.network.peers = []))
  have replayed : ∃ state, (sturdySystem Nat).Reachable state ∧ checks state = true :=
    Transition.exists_reachable_of_replay ops checks (by decide)
  obtain ⟨state, reached, checked⟩ := replayed
  simp only [checks, Bool.and_eq_true, decide_eq_true_eq, Option.any_eq_true] at checked
  obtain ⟨⟨live, published⟩, ⟨result, after⟩, step, gone⟩ := checked
  have source : 1 ∈ state.multiVat.multiVatPeers := AList.lookup_isSome.mp (by simp [live])
  have restores := always state reached 1 source ⟨"host", false⟩ [0]
  obtain ⟨targetId, -, -, -, alive⟩ :=
    restores.succeeds _ result after ⟨1, _, live, rfl⟩ published step
  have present : 0 ∈ Table.values after.runtime.network.peers := alive (.network 0) rfl
  rw [gone] at present
  cases present

end Capnp.Rpc
