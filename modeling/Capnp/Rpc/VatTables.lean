import Capnp.Library.Table
import Capnp.Library.Transition

/-! The connection tables of a generic vat network. A non-unique connection enters itself in
its vat's table when it is constructed, and its destructor erases the entry by the peer.
-/

namespace Capnp.Rpc

/-- A host, and whether a connection of one's own is asked for. -/
structure LeanVatId where
  host : String
  unique : Bool
deriving DecidableEq

/-- A connection object from the vat `vat` to the vat `peerVat`. -/
structure ConnectionImpl where
  vat : String
  peerVat : String
  unique : Bool
  partner : Option Nat := none
deriving DecidableEq

/-- The tables of one vat. -/
structure GenericVat where
  connections : Table String Nat := ∅
  acceptQueue : List Nat := []
deriving DecidableEq

/-- Vats are known by their names, connection objects by the order of their construction.
`references` lists the objects of the references held outside the accept queues.
-/
structure GenericVatNetwork where
  vats : Table String GenericVat := ∅
  objects : Table Nat ConnectionImpl := ∅
  references : List Nat := []
  created : Nat := 0
deriving DecidableEq

namespace GenericVatNetwork

def updateVat (name : String) (change : GenericVat → GenericVat) (network : GenericVatNetwork)
    : GenericVatNetwork :=
  { network with vats := network.vats.modify name change }

def setPartner (id : Nat) (partner : Option Nat) (network : GenericVatNetwork)
    : GenericVatNetwork :=
  { network with
    objects := network.objects.modify id (fun object => { object with partner := partner }) }

/-- The entry for `peer` in the table of `vat`. -/
def connectionTo (network : GenericVatNetwork) (vat peer : String) : Option Nat :=
  (network.vats.lookup vat).bind (fun vat => vat.connections.lookup peer)

/-- The constructor, which gives the new object. -/
def construct (vat peerVat : String) (unique : Bool) (network : GenericVatNetwork)
    : Nat × GenericVatNetwork :=
  let id := network.created
  let network :=
    { network with
      created := id + 1
      objects := network.objects.insert id { vat, peerVat, unique } }
  if unique then (id, network)
  else
    (id,
      network.updateVat vat
        (fun vat => { vat with connections := vat.connections.insert peerVat id }))

def hasPartner (id : Nat) (network : GenericVatNetwork) : Bool :=
  (network.objects.lookup id).any (fun object => object.partner.isSome)

def attach (id other : Nat) (network : GenericVatNetwork) : Except String GenericVatNetwork :=
  if network.hasPartner id then .error "expected partner_ == nullptr"
  else if network.hasPartner other then .error "expected other.partner_ == nullptr"
  else .ok ((network.setPartner id (some other)).setPartner other (some id))

/-- The destructor. -/
def destruct (id : Nat) (network : GenericVatNetwork) : GenericVatNetwork :=
  match network.objects.lookup id with
  | none => network
  | some object =>
      let network :=
        if object.unique then network
        else
          network.updateVat object.vat
            (fun vat => { vat with connections := vat.connections.erase object.peerVat })
      let network :=
        match object.partner with
        | none => network
        | some partner => network.setPartner partner none
      { network with objects := network.objects.erase id }

def pushAccept (host : String) (id : Nat) (network : GenericVatNetwork) : GenericVatNetwork :=
  network.updateVat host (fun vat => { vat with acceptQueue := vat.acceptQueue ++ [id] })

def addRef (id : Nat) (network : GenericVatNetwork) : GenericVatNetwork :=
  { network with references := id :: network.references }

/-- The two ends of a new connection: the caller gets one, the host's accept queue the
other.
-/
def connectPair (source : String) (hostId : LeanVatId) (network : GenericVatNetwork)
    : Except String (Option Nat × GenericVatNetwork) := do
  let (localEnd, network) := network.construct source hostId.host hostId.unique
  let (remoteEnd, network) := network.construct hostId.host source hostId.unique
  let network ← network.attach localEnd remoteEnd
  return (some localEnd, (network.pushAccept hostId.host remoteEnd).addRef localEnd)

/-- `none` stands for the vat itself. -/
def connectByVatId (source : String) (hostId : LeanVatId) (network : GenericVatNetwork)
    : Except String (Option Nat × GenericVatNetwork) :=
  if hostId.host = source then .ok (none, network)
  else if hostId.host ∉ network.vats then .error ("unknown vat host: " ++ hostId.host)
  else
    match if hostId.unique then none else network.connectionTo source hostId.host with
    | some existing => .ok (some existing, network.addRef existing)
    | none => network.connectPair source hostId

def add (name : String) (network : GenericVatNetwork) : Except String GenericVatNetwork :=
  if name ∈ network.vats then .error ("vat already exists: " ++ name)
  else .ok { network with vats := network.vats.insert name {} }

/-- The first queued connection goes to the caller. -/
def accept (name : String) (network : GenericVatNetwork)
    : Option (Nat × GenericVatNetwork) :=
  match network.vats.lookup name with
  | none => none
  | some vat =>
      match vat.acceptQueue with
      | [] => none
      | id :: rest =>
          let network := network.updateVat name (fun vat => { vat with acceptQueue := rest })
          some (id, network.addRef id)

/-- Some accept queue holds a reference to the object. -/
def queued (id : Nat) (network : GenericVatNetwork) : Bool :=
  (Table.values network.vats).any (fun vat => id ∈ vat.acceptQueue)

/-- A reference goes away, and the object with its last one. -/
def release (id : Nat) (network : GenericVatNetwork) : Option GenericVatNetwork :=
  if id ∉ network.references then none
  else
    let network := { network with references := network.references.erase id }
    if id ∈ network.references ∨ network.queued id then some network
    else some (network.destruct id)

end GenericVatNetwork

/-- What may happen on a network. -/
inductive GenericVatOp where
  | add (name : String)
  | connect (source : String) (hostId : LeanVatId)
  | accept (name : String)
  | release (id : Nat)
deriving DecidableEq

/-- A call that throws leaves the network as it was. -/
def GenericVatOp.run (network : GenericVatNetwork) : GenericVatOp → Option GenericVatNetwork
  | .add name => some ((network.add name).toOption.getD network)
  | .connect source hostId =>
      if source ∈ network.vats then
        some (((network.connectByVatId source hostId).toOption.map Prod.snd).getD network)
      else none
  | .accept name => (network.accept name).map Prod.snd
  | .release id => network.release id

def vatNetworkSystem : Transition.System GenericVatNetwork GenericVatOp :=
  .ofFunction {} GenericVatOp.run

-----------------------------------------------------------------------------------------
-- What one operation does to the tables and the objects
-----------------------------------------------------------------------------------------

namespace GenericVatNetwork

/-- Changing a vat adds and removes none. -/
theorem mem_updateVat {name other : String} {change : GenericVat → GenericVat}
    {network : GenericVatNetwork}
    : other ∈ (network.updateVat name change).vats ↔ other ∈ network.vats := by
  rw [← AList.lookup_isSome, ← AList.lookup_isSome, updateVat, Table.lookup_modify]
  rcases eq_or_ne other name with rfl | same
  · simp
  · simp [same]

/-- Changing a vat changes its own connections only. -/
theorem connectionTo_updateVat (name : String) (change : GenericVat → GenericVat)
    (network : GenericVatNetwork) (vat peer : String)
    : (network.updateVat name change).connectionTo vat peer
      = if vat = name then
          (network.vats.lookup name).bind (fun vat => (change vat).connections.lookup peer)
        else network.connectionTo vat peer := by
  rw [connectionTo, updateVat, Table.lookup_modify]
  by_cases same : vat = name
  · rw [if_pos same, if_pos same, Option.bind_map]
    rfl
  · simp [same, connectionTo]

/-- A change of the accept queue alone keeps every entry. -/
theorem connectionTo_updateVat_queue (name : String) (queue : GenericVat → List Nat)
    (network : GenericVatNetwork) (vat peer : String)
    : (network.updateVat name (fun vat => { vat with acceptQueue := queue vat })).connectionTo
        vat peer
      = network.connectionTo vat peer := by
  rw [connectionTo_updateVat]
  rcases eq_or_ne vat name with rfl | same
  · simp [connectionTo]
  · simp [same]

/-- Only vats have connections. -/
theorem mem_of_connectionTo {network : GenericVatNetwork} {vat peer : String} {id : Nat}
    (found : network.connectionTo vat peer = some id)
    : vat ∈ network.vats := by
  obtain ⟨_, present, _⟩ := Option.bind_eq_some_iff.mp found
  exact AList.lookup_isSome.mp (by simp [present])

/-- No object and no entry has changed, and no vat is gone. -/
structure Quiet (before after : GenericVatNetwork) : Prop where
  objects : after.objects = before.objects
  created : after.created = before.created
  connectionTo : ∀ vat peer, after.connectionTo vat peer = before.connectionTo vat peer
  vats : ∀ name ∈ before.vats, name ∈ after.vats

/-- Doing nothing is quiet. -/
theorem Quiet.refl (network : GenericVatNetwork) : network.Quiet network :=
  ⟨rfl, rfl, fun _ _ => rfl, fun _ present => present⟩

/-- So is a further reference. -/
theorem Quiet.addRef (network : GenericVatNetwork) (id : Nat)
    : network.Quiet (network.addRef id) :=
  ⟨rfl, rfl, fun _ _ => rfl, fun _ present => present⟩

/-- So is accepting a connection. -/
theorem Quiet.accept {network after : GenericVatNetwork} {name : String} {id : Nat}
    (accepted : network.accept name = some (id, after))
    : network.Quiet after := by
  unfold GenericVatNetwork.accept at accepted
  cases found : network.vats.lookup name with
  | none => simp [found] at accepted
  | some vat =>
      cases queue : vat.acceptQueue with
      | nil => simp [found, queue] at accepted
      | cons first rest =>
          simp only [found, queue, Option.some.injEq, Prod.mk.injEq] at accepted
          obtain ⟨-, rfl⟩ := accepted
          refine ⟨rfl, rfl, fun vat peer => ?_, fun _ present => mem_updateVat.mpr present⟩
          exact connectionTo_updateVat_queue name (fun _ => rest) network vat peer

/-- So is a further vat. -/
theorem Quiet.add {network after : GenericVatNetwork} {name : String}
    (added : network.add name = .ok after)
    : network.Quiet after := by
  unfold GenericVatNetwork.add at added
  by_cases present : name ∈ network.vats
  · simp [present] at added
  · simp only [present, if_false, Except.ok.injEq] at added
    subst added
    refine ⟨rfl, rfl, fun vat peer => ?_, fun other known => ?_⟩
    · rcases eq_or_ne vat name with rfl | same
      · simp [GenericVatNetwork.connectionTo, AList.lookup_eq_none.mpr present]
      · simp [GenericVatNetwork.connectionTo, AList.lookup_insert_ne same]
    · exact (AList.mem_insert _).mpr (.inr known)

/-- Both ends of a new connection from `source` are there, attached to each other, and the
non-unique ones are entered.
-/
structure PairCreated (before : GenericVatNetwork) (source : String) (hostId : LeanVatId)
    (after : GenericVatNetwork) : Prop where
  created : after.created = before.created + 2
  localEnd
    : after.objects.lookup before.created
      = some ⟨source, hostId.host, hostId.unique, some (before.created + 1)⟩
  remoteEnd
    : after.objects.lookup (before.created + 1)
      = some ⟨hostId.host, source, hostId.unique, some before.created⟩
  others
    : ∀ id, id ≠ before.created → id ≠ before.created + 1 →
        after.objects.lookup id = before.objects.lookup id
  connectionTo
    : ∀ vat peer,
        after.connectionTo vat peer
        = if hostId.unique then before.connectionTo vat peer
          else if vat = hostId.host ∧ peer = source then some (before.created + 1)
          else if vat = source ∧ peer = hostId.host then some before.created
          else before.connectionTo vat peer
  vats : ∀ name, name ∈ after.vats ↔ name ∈ before.vats

/-- What one constructor does. -/
theorem construct_spec (network : GenericVatNetwork) {vat : String} (known : vat ∈ network.vats)
    (peerVat : String) (unique : Bool)
    : ∃ after,
        network.construct vat peerVat unique = (network.created, after)
        ∧ after.created = network.created + 1
        ∧ after.objects = network.objects.insert network.created { vat, peerVat, unique }
        ∧ (∀ v w, after.connectionTo v w
            = if unique = false ∧ v = vat ∧ w = peerVat then some network.created
              else network.connectionTo v w)
        ∧ ∀ name, name ∈ after.vats ↔ name ∈ network.vats := by
  obtain ⟨stored, found⟩ := Option.isSome_iff_exists.mp (AList.lookup_isSome.mpr known)
  cases unique with
  | true =>
      refine ⟨_, rfl, rfl, rfl, fun v w => ?_, fun name => Iff.rfl⟩
      simp [connectionTo]
  | false =>
      refine ⟨_, rfl, rfl, rfl, fun v w => ?_, fun name => mem_updateVat⟩
      rw [connectionTo_updateVat]
      rcases eq_or_ne v vat with rfl | own
      · by_cases entered : w = peerVat
        · subst entered
          simp [found]
        · simp [found, entered, AList.lookup_insert_ne entered, connectionTo]
      · simp [own, connectionTo]

/-- A connection between two vats is made in full. -/
theorem connectPair_spec (network : GenericVatNetwork) {source : String} {hostId : LeanVatId}
    (known : source ∈ network.vats) (host : hostId.host ∈ network.vats)
    : ∃ after,
        network.connectPair source hostId = .ok (some network.created, after)
        ∧ network.PairCreated source hostId after := by
  obtain ⟨first, constructed, counted, objects, entries, names⟩ :=
    network.construct_spec known hostId.host hostId.unique
  obtain ⟨second, constructed', counted', objects', entries', names'⟩ :=
    first.construct_spec ((names _).mpr host) source hostId.unique
  rw [counted] at constructed' counted' objects' entries'
  have next : network.created + 1 ≠ network.created := by omega
  have localEnd
      : second.objects.lookup network.created
        = some { vat := source, peerVat := hostId.host, unique := hostId.unique } := by
    rw [objects', AList.lookup_insert_ne next.symm, objects, AList.lookup_insert]
  have remoteEnd
      : second.objects.lookup (network.created + 1)
        = some { vat := hostId.host, peerVat := source, unique := hostId.unique } := by
    rw [objects', AList.lookup_insert]
  have attached
      : second.attach network.created (network.created + 1)
        = .ok ((second.setPartner network.created (some (network.created + 1))).setPartner
            (network.created + 1) (some network.created)) := by
    simp [attach, hasPartner, localEnd, remoteEnd]
  let after :=
    (((second.setPartner network.created (some (network.created + 1))).setPartner
      (network.created + 1) (some network.created)).pushAccept hostId.host
        (network.created + 1)).addRef network.created
  have stored (id : Nat)
      : after.objects.lookup id
        = if id = network.created + 1 then
            some ⟨hostId.host, source, hostId.unique, some network.created⟩
          else if id = network.created then
            some ⟨source, hostId.host, hostId.unique, some (network.created + 1)⟩
          else network.objects.lookup id := by
    show AList.lookup id (Table.modify _ _ (Table.modify _ _ second.objects)) = _
    rw [Table.lookup_modify, Table.lookup_modify, Table.lookup_modify, if_neg next, localEnd,
      remoteEnd]
    by_cases last : id = network.created + 1
    · simp [last]
    · by_cases same : id = network.created
      · simp [same]
      · simp [last, same, objects', objects]
  refine ⟨after, ?_, ?_⟩
  · simp only [connectPair, constructed, constructed', attached, bind, Except.bind, pure,
      Except.pure, after]
  · refine ⟨counted', ?_, ?_, fun id first last => ?_, fun vat peer => ?_, fun name => ?_⟩
    · simp [stored]
    · simp [stored]
    · simp [stored, first, last]
    · refine (connectionTo_updateVat_queue hostId.host _ _ vat peer).trans ?_
      refine (entries' vat peer).trans ?_
      rw [entries]
      cases hostId.unique with
      | true => simp
      | false => simp
    · refine mem_updateVat.trans ?_
      exact (names' name).trans (names name)

/-- The object `id` is gone; its partner has none any more, and the entry for its peer is
erased whatever it was.
-/
structure Destroyed (before : GenericVatNetwork) (id : Nat) (object : ConnectionImpl)
    (after : GenericVatNetwork) : Prop where
  created : after.created = before.created
  gone : after.objects.lookup id = none
  others
    : ∀ other, other ≠ id →
        after.objects.lookup other
        = if object.partner = some other then
            (before.objects.lookup other).map (fun back => { back with partner := none })
          else before.objects.lookup other
  connectionTo
    : ∀ vat peer,
        after.connectionTo vat peer
        = if object.unique = false ∧ vat = object.vat ∧ peer = object.peerVat then none
          else before.connectionTo vat peer
  vats : ∀ name, name ∈ after.vats ↔ name ∈ before.vats

/-- Exactly one entry goes. -/
theorem connectionTo_erase (network : GenericVatNetwork) (source peerVat vat peer : String)
    : (network.updateVat source
        (fun vat => { vat with connections := vat.connections.erase peerVat })).connectionTo
          vat peer
      = if vat = source ∧ peer = peerVat then none else network.connectionTo vat peer := by
  rw [connectionTo_updateVat]
  rcases eq_or_ne vat source with rfl | own
  · by_cases erased : peer = peerVat
    · subst erased
      simp
    · simp [erased, AList.lookup_erase_ne erased, connectionTo]
  · simp [own]

/-- Detaching the partner of an object touches that partner only. -/
theorem detached_spec (network : GenericVatNetwork) (partner : Option Nat)
    : let detached :=
        match partner with
        | none => network
        | some back => network.setPartner back none
      detached.vats = network.vats ∧ detached.created = network.created
        ∧ ∀ other,
            detached.objects.lookup other
            = if partner = some other then
                (network.objects.lookup other).map (fun back => { back with partner := none })
              else network.objects.lookup other := by
  cases partner with
  | none => exact ⟨rfl, rfl, fun other => by simp⟩
  | some back =>
      refine ⟨rfl, rfl, fun other => (Table.lookup_modify ..).trans ?_⟩
      rcases eq_or_ne other back with rfl | different
      · simp
      · simp [different, Ne.symm different]

/-- An object that is destroyed goes with the entry of its vat. -/
theorem destruct_spec {network : GenericVatNetwork} {id : Nat} {object : ConnectionImpl}
    (found : network.objects.lookup id = some object)
    : network.Destroyed id object (network.destruct id) := by
  obtain ⟨vat, peerVat, unique, partner⟩ := object
  cases unique with
  | true =>
      simp only [destruct, found, if_true]
      obtain ⟨vats, created, others⟩ := network.detached_spec partner
      refine ⟨created, AList.lookup_erase _ _, fun other different => ?_, fun v w => ?_,
        fun name => ?_⟩
      · exact (AList.lookup_erase_ne different).trans (others other)
      · simp [connectionTo, vats]
      · exact iff_of_eq (congrArg (name ∈ ·) vats)
  | false =>
      simp only [destruct, found, Bool.false_eq_true, if_false]
      set cleared := network.updateVat vat
        (fun vat => { vat with connections := vat.connections.erase peerVat })
      obtain ⟨vats, created, others⟩ := cleared.detached_spec partner
      refine ⟨created, AList.lookup_erase _ _, fun other different => ?_, fun v w => ?_,
        fun name => ?_⟩
      · exact (AList.lookup_erase_ne different).trans (others other)
      · have entry := network.connectionTo_erase vat peerVat v w
        simpa [connectionTo, vats] using entry
      · exact (iff_of_eq (congrArg (name ∈ ·) vats)).trans mem_updateVat

end GenericVatNetwork

/-- A non-unique connect that finds no entry for the host finds none at the host for the
connecting vat.
-/
def FreshPair (network : GenericVatNetwork) : GenericVatOp → Prop
  | .connect source hostId =>
      hostId.unique = false → network.connectionTo source hostId.host = none →
        network.connectionTo hostId.host source = none
  | _ => True

instance (network : GenericVatNetwork) (op : GenericVatOp) : Decidable (FreshPair network op) :=
  match op with
  | .connect _ _ => inferInstanceAs (Decidable (_ → _ → _))
  | .add _ => .isTrue trivial
  | .accept _ => .isTrue trivial
  | .release _ => .isTrue trivial

/-- A release leaves everything as it is, or destroys the object whose last reference it drops. -/
theorem GenericVatOp.run_release {network after : GenericVatNetwork} {id : Nat}
    (step : (release id).run network = some after)
    : network.Quiet after
      ∨ ∃ object, network.objects.lookup id = some object ∧ network.Destroyed id object after := by
  simp only [run, GenericVatNetwork.release] at step
  split_ifs at step with unheld kept
  · obtain rfl := Option.some.inj step
    exact .inl ⟨rfl, rfl, fun _ _ => rfl, fun _ present => present⟩
  · obtain rfl := Option.some.inj step
    cases found : network.objects.lookup id with
    | none =>
        left
        simp only [GenericVatNetwork.destruct, found]
        exact ⟨rfl, rfl, fun _ _ => rfl, fun _ present => present⟩
    | some object =>
        right
        have destroyed
            : GenericVatNetwork.Destroyed
                { network with references := network.references.erase id } id object _ :=
          GenericVatNetwork.destruct_spec found
        exact
          ⟨object, rfl, destroyed.created, destroyed.gone, destroyed.others,
            destroyed.connectionTo, destroyed.vats⟩

/-- Connecting gives nothing for the vat itself, an error for an unknown host, the connection that
there is, or a new pair.
-/
theorem GenericVatOp.run_connect {network after : GenericVatNetwork} {source : String}
    {hostId : LeanVatId} (step : (connect source hostId).run network = some after)
    : (network.Quiet after ∧ FreshPair network (connect source hostId))
      ∨ (source ∈ network.vats
          ∧ hostId.host ∈ network.vats
          ∧ hostId.host ≠ source
          ∧ (hostId.unique = false → network.connectionTo source hostId.host = none)
          ∧ network.PairCreated source hostId after) := by
  simp only [run] at step
  split_ifs at step with known
  by_cases own : hostId.host = source
  · left
    have connected : network.connectByVatId source hostId = .ok (none, network) := by
      simp [GenericVatNetwork.connectByVatId, own]
    obtain rfl : network = after := by simpa [connected, Except.toOption] using step
    exact ⟨.refl network, fun _ absent => by simpa [own] using absent⟩
  by_cases host : hostId.host ∈ network.vats
  · cases existing
        : if hostId.unique then none else network.connectionTo source hostId.host with
    | some id =>
        left
        have connected
            : network.connectByVatId source hostId = .ok (some id, network.addRef id) := by
          simp only [GenericVatNetwork.connectByVatId, own, host, not_true, if_false, existing]
        obtain rfl : network.addRef id = after := by
          simpa [connected, Except.toOption] using step
        refine ⟨.addRef network id, fun shared absent => ?_⟩
        simp [shared, absent] at existing
    | none =>
        right
        obtain ⟨result, paired, created⟩ := network.connectPair_spec known host
        have connected
            : network.connectByVatId source hostId = .ok (some network.created, result) := by
          simp only [GenericVatNetwork.connectByVatId, own, host, not_true, if_false, existing,
            paired]
        obtain rfl : result = after := by simpa [connected, Except.toOption] using step
        refine ⟨known, host, own, fun shared => ?_, created⟩
        simpa [shared] using existing
  · left
    have connected
        : network.connectByVatId source hostId
          = .error ("unknown vat host: " ++ hostId.host) := by
      simp [GenericVatNetwork.connectByVatId, own, host]
    obtain rfl : network = after := by simpa [connected, Except.toOption] using step
    refine ⟨.refl network, fun _ _ => Option.eq_none_iff_forall_ne_some.mpr ?_⟩
    exact fun id found => host (GenericVatNetwork.mem_of_connectionTo found)

/-- What an operation can do. -/
theorem GenericVatOp.run_cases {network after : GenericVatNetwork} {op : GenericVatOp}
    (step : op.run network = some after)
    : (network.Quiet after ∧ FreshPair network op)
      ∨ (∃ source hostId,
          op = .connect source hostId
          ∧ source ∈ network.vats
          ∧ hostId.host ∈ network.vats
          ∧ hostId.host ≠ source
          ∧ (hostId.unique = false → network.connectionTo source hostId.host = none)
          ∧ network.PairCreated source hostId after)
      ∨ ∃ id object,
          op = .release id
          ∧ network.objects.lookup id = some object
          ∧ network.Destroyed id object after := by
  cases op with
  | add name =>
      left
      refine ⟨?_, trivial⟩
      cases added : network.add name with
      | error text =>
          obtain rfl : network = after := by simpa [run, added, Except.toOption] using step
          exact .refl network
      | ok result =>
          obtain rfl : result = after := by simpa [run, added, Except.toOption] using step
          exact .add added
  | accept name =>
      left
      refine ⟨?_, trivial⟩
      obtain ⟨⟨id, result⟩, accepted, rfl⟩ := Option.map_eq_some_iff.mp step
      exact .accept accepted
  | release id =>
      rcases run_release step with quiet | ⟨object, found, destroyed⟩
      · exact .inl ⟨quiet, trivial⟩
      · exact .inr (.inr ⟨id, object, rfl, found, destroyed⟩)
  | connect source hostId =>
      rcases run_connect step with quiet | created
      · exact .inl quiet
      · exact .inr (.inl ⟨source, hostId, rfl, created⟩)

-----------------------------------------------------------------------------------------
-- The tables mirror the connections
-----------------------------------------------------------------------------------------

namespace GenericVatNetwork

/-- A vat has an entry for a peer exactly when a non-unique connection to it lives, and the
entry is that connection.
-/
def TablesMirror (network : GenericVatNetwork) : Prop :=
  ∀ vat peer id,
    network.connectionTo vat peer = some id
    ↔ ∃ object,
        network.objects.lookup id = some object
        ∧ object.vat = vat
        ∧ object.peerVat = peer
        ∧ object.unique = false

/-- A non-unique connect to a peer with an entry gives the entry and creates nothing. -/
def ConnectsShared (network : GenericVatNetwork) : Prop :=
  ∀ vat peer id,
    network.connectionTo vat peer = some id →
    network.connectByVatId vat ⟨peer, false⟩ = .ok (some id, network.addRef id)

/-- Two attached non-unique connections are the entries of their vats for each other. -/
def PartnersEntered (network : GenericVatNetwork) : Prop :=
  ∀ id object other back,
    network.objects.lookup id = some object →
    network.objects.lookup other = some back →
    object.partner = some other →
    back.partner = some id →
    object.unique = false →
    back.unique = false →
    network.connectionTo object.vat back.vat = some id
    ∧ network.connectionTo back.vat object.vat = some other

/-- What every run keeps, whatever the tables hold. -/
structure WellFormed (network : GenericVatNetwork) : Prop where
  ends
    : ∀ id object, network.objects.lookup id = some object →
        object.vat ∈ network.vats ∧ object.peerVat ∈ network.vats
        ∧ object.peerVat ≠ object.vat
  fresh : ∀ id object, network.objects.lookup id = some object → id < network.created
  partners
    : ∀ id object other, network.objects.lookup id = some object → object.partner = some other →
        network.objects.lookup other
        = some ⟨object.peerVat, object.vat, object.unique, some id⟩

variable {before after : GenericVatNetwork}

/-- Quiet steps keep the network well formed. -/
theorem Quiet.wellFormed (quiet : before.Quiet after) (formed : before.WellFormed)
    : after.WellFormed := by
  refine ⟨fun id object found => ?_, fun id object found => ?_, fun id object other found => ?_⟩
  all_goals rw [quiet.objects] at found
  · obtain ⟨own, peer, apart⟩ := formed.ends id object found
    exact ⟨quiet.vats _ own, quiet.vats _ peer, apart⟩
  · exact quiet.created ▸ formed.fresh id object found
  · rw [quiet.objects]
    exact formed.partners id object other found

/-- Quiet steps keep the tables. -/
theorem Quiet.tablesMirror (quiet : before.Quiet after) (mirror : before.TablesMirror)
    : after.TablesMirror := by
  intro vat peer id
  rw [quiet.connectionTo, quiet.objects]
  exact mirror vat peer id

namespace PairCreated

variable {source : String} {hostId : LeanVatId}

/-- A live object is one of the two new ones or was live before. -/
theorem lookup_cases (pair : before.PairCreated source hostId after) {id : Nat}
    {object : ConnectionImpl} (found : after.objects.lookup id = some object)
    : (id = before.created
        ∧ object = ⟨source, hostId.host, hostId.unique, some (before.created + 1)⟩)
      ∨ (id = before.created + 1
        ∧ object = ⟨hostId.host, source, hostId.unique, some before.created⟩)
      ∨ before.objects.lookup id = some object := by
  rcases eq_or_ne id before.created with rfl | first
  · exact .inl ⟨rfl, Option.some.inj (found.symm.trans pair.localEnd)⟩
  · rcases eq_or_ne id (before.created + 1) with rfl | second
    · exact .inr (.inl ⟨rfl, Option.some.inj (found.symm.trans pair.remoteEnd)⟩)
    · exact .inr (.inr ((pair.others id first second).symm.trans found))

/-- What was live before still is. -/
theorem lookup_kept (pair : before.PairCreated source hostId after) (formed : before.WellFormed)
    {id : Nat} {object : ConnectionImpl} (found : before.objects.lookup id = some object)
    : after.objects.lookup id = some object := by
  have old := formed.fresh id object found
  exact (pair.others id (by omega) (by omega)).trans found

/-- The network stays well formed. -/
theorem wellFormed (pair : before.PairCreated source hostId after) (formed : before.WellFormed)
    (known : source ∈ before.vats) (host : hostId.host ∈ before.vats)
    (apart : hostId.host ≠ source)
    : after.WellFormed := by
  refine ⟨fun id object found => ?_, fun id object found => ?_,
    fun id object other found attached => ?_⟩
  · rw [pair.vats, pair.vats]
    rcases pair.lookup_cases found with ⟨-, rfl⟩ | ⟨-, rfl⟩ | old
    · exact ⟨known, host, apart⟩
    · exact ⟨host, known, apart.symm⟩
    · exact formed.ends id object old
  · rw [pair.created]
    rcases pair.lookup_cases found with ⟨rfl, -⟩ | ⟨rfl, -⟩ | old
    · omega
    · omega
    · exact Nat.lt_add_right 2 (formed.fresh id object old)
  · rcases pair.lookup_cases found with ⟨rfl, rfl⟩ | ⟨rfl, rfl⟩ | old
    · obtain rfl := Option.some.inj attached
      exact pair.remoteEnd
    · obtain rfl := Option.some.inj attached
      exact pair.localEnd
    · exact pair.lookup_kept formed (formed.partners id object other old attached)

/-- The tables still mirror the connections when the host had none back to the source. -/
theorem tablesMirror (pair : before.PairCreated source hostId after) (formed : before.WellFormed)
    (mirror : before.TablesMirror) (apart : hostId.host ≠ source)
    (absent : hostId.unique = false → before.connectionTo source hostId.host = none)
    (fresh : hostId.unique = false → before.connectionTo hostId.host source = none)
    : after.TablesMirror := by
  intro vat peer id
  rw [pair.connectionTo]
  constructor
  · intro entered
    split_ifs at entered with unique remote own
    · obtain ⟨object, found, ends⟩ := (mirror vat peer id).mp entered
      exact ⟨object, pair.lookup_kept formed found, ends⟩
    · obtain ⟨rfl, rfl⟩ := remote
      obtain rfl := Option.some.inj entered
      exact ⟨_, pair.remoteEnd, rfl, rfl, by simpa using unique⟩
    · obtain ⟨rfl, rfl⟩ := own
      obtain rfl := Option.some.inj entered
      exact ⟨_, pair.localEnd, rfl, rfl, by simpa using unique⟩
    · obtain ⟨object, found, ends⟩ := (mirror vat peer id).mp entered
      exact ⟨object, pair.lookup_kept formed found, ends⟩
  · intro live
    obtain ⟨object, found, rfl, rfl, shared⟩ := live
    rcases pair.lookup_cases found with ⟨rfl, rfl⟩ | ⟨rfl, rfl⟩ | old
    · simp only at shared
      simp [shared, apart, apart.symm]
    · simp only at shared
      simp [shared]
    · have entered := (mirror object.vat object.peerVat id).mpr ⟨object, old, rfl, rfl, shared⟩
      cases unique : hostId.unique with
      | true => simpa using entered
      | false =>
          have notRemote : ¬ (object.vat = hostId.host ∧ object.peerVat = source) := by
            intro same
            rw [same.1, same.2, fresh unique] at entered
            exact absurd entered (by simp)
          have notOwn : ¬ (object.vat = source ∧ object.peerVat = hostId.host) := by
            intro same
            rw [same.1, same.2, absent unique] at entered
            exact absurd entered (by simp)
          simpa [notRemote, notOwn] using entered

/-- When the host had one, two live connections back to the source claim its entry. -/
theorem fresh_of_tablesMirror (pair : before.PairCreated source hostId after)
    (formed : before.WellFormed) (mirror : before.TablesMirror) (mirrors : after.TablesMirror)
    (shared : hostId.unique = false)
    : before.connectionTo hostId.host source = none := by
  rw [Option.eq_none_iff_forall_ne_some]
  intro id entered
  obtain ⟨object, found, ends⟩ := (mirror _ _ id).mp entered
  have kept := (mirrors _ _ id).mpr ⟨object, pair.lookup_kept formed found, ends⟩
  have added := (mirrors _ _ _).mpr ⟨_, pair.remoteEnd, rfl, rfl, shared⟩
  have same : id = before.created + 1 := Option.some.inj (kept.symm.trans added)
  have old := formed.fresh id object found
  omega

end PairCreated

namespace Destroyed

variable {id : Nat} {object : ConnectionImpl}

/-- What is live now was live before, with the same ends. -/
theorem lookup_cases (destroyed : before.Destroyed id object after) {other : Nat}
    {back : ConnectionImpl} (found : after.objects.lookup other = some back)
    : other ≠ id
      ∧ ∃ old,
          before.objects.lookup other = some old
          ∧ back = if object.partner = some other then { old with partner := none } else old := by
  have different : other ≠ id := by
    intro same
    subst same
    rw [destroyed.gone] at found
    cases found
  rw [destroyed.others other different] at found
  refine ⟨different, ?_⟩
  split_ifs at found ⊢ with partner
  · obtain ⟨old, present, rfl⟩ := Option.map_eq_some_iff.mp found
    exact ⟨old, present, rfl⟩
  · exact ⟨back, found, rfl⟩

/-- The network stays well formed without the object. -/
theorem wellFormed (destroyed : before.Destroyed id object after) (formed : before.WellFormed)
    (live : before.objects.lookup id = some object)
    : after.WellFormed := by
  refine ⟨fun other back found => ?_, fun other back found => ?_,
    fun other back third found attached => ?_⟩
  all_goals obtain ⟨different, old, present, rfl⟩ := destroyed.lookup_cases found
  · rw [destroyed.vats, destroyed.vats]
    have ends := formed.ends other old present
    split_ifs
    · exact ends
    · exact ends
  · rw [destroyed.created]
    exact formed.fresh other old present
  · split_ifs at attached with partner
    rw [if_neg partner]
    have back := formed.partners other old third present attached
    -- The third object is neither the destroyed one nor its partner.
    have kept : third ≠ id := by
      intro same
      subst same
      rw [live] at back
      exact partner (by simp [Option.some.inj back])
    have apart : object.partner ≠ some third := by
      intro same
      have mate := formed.partners id object third live same
      rw [back] at mate
      simp only [Option.some.injEq, ConnectionImpl.mk.injEq] at mate
      exact different mate.2.2.2
    rw [destroyed.others third kept, if_neg apart]
    exact back

/-- The tables stay those of the live connections. -/
theorem tablesMirror (destroyed : before.Destroyed id object after)
    (live : before.objects.lookup id = some object) (mirror : before.TablesMirror)
    : after.TablesMirror := by
  intro vat peer other
  rw [destroyed.connectionTo]
  constructor
  · intro entered
    split_ifs at entered with erased
    obtain ⟨old, found, rfl, rfl, shared⟩ := (mirror vat peer other).mp entered
    have different : other ≠ id := by
      intro same
      subst same
      obtain rfl := Option.some.inj (live.symm.trans found)
      exact erased ⟨shared, rfl, rfl⟩
    rw [destroyed.others other different]
    split_ifs
    · exact ⟨{ old with partner := none }, by rw [found]; rfl, rfl, rfl, shared⟩
    · exact ⟨old, found, rfl, rfl, shared⟩
  · intro living
    obtain ⟨back, found, rfl, rfl, shared⟩ := living
    obtain ⟨different, old, present, rfl⟩ := destroyed.lookup_cases found
    have ends
        : (if object.partner = some other then { old with partner := none } else old).vat = old.vat
          ∧ (if object.partner = some other then { old with partner := none } else old).peerVat
            = old.peerVat
          ∧ (if object.partner = some other then { old with partner := none } else old).unique
            = old.unique := by
      split_ifs <;> exact ⟨rfl, rfl, rfl⟩
    rw [ends.2.2] at shared
    rw [ends.1, ends.2.1]
    have entered := (mirror old.vat old.peerVat other).mpr ⟨old, present, rfl, rfl, shared⟩
    rw [if_neg, entered]
    intro erased
    obtain ⟨plain, own, peer⟩ := erased
    have claimed := (mirror _ _ id).mpr ⟨object, live, own.symm, peer.symm, plain⟩
    exact different (Option.some.inj (entered.symm.trans claimed))

end Destroyed

end GenericVatNetwork

/-- Every operation keeps what every run keeps. -/
theorem GenericVatOp.run_wellFormed {network after : GenericVatNetwork} {op : GenericVatOp}
    (step : op.run network = some after) (formed : network.WellFormed)
    : after.WellFormed := by
  rcases GenericVatOp.run_cases step with
    ⟨quiet, -⟩ | ⟨source, hostId, -, known, host, apart, -, pair⟩
    | ⟨id, object, -, live, destroyed⟩
  · exact quiet.wellFormed formed
  · exact pair.wellFormed formed known host apart
  · exact destroyed.wellFormed formed live

/-- An operation keeps the mirror exactly when a pair it creates is fresh. -/
theorem GenericVatOp.run_tablesMirror_iff {network after : GenericVatNetwork}
    {op : GenericVatOp} (step : op.run network = some after) (formed : network.WellFormed)
    (mirror : network.TablesMirror)
    : after.TablesMirror ↔ FreshPair network op := by
  rcases GenericVatOp.run_cases step with
    ⟨quiet, fresh⟩ | ⟨source, hostId, rfl, -, -, apart, absent, pair⟩
    | ⟨id, object, rfl, live, destroyed⟩
  · exact ⟨fun _ => fresh, fun _ => quiet.tablesMirror mirror⟩
  · constructor
    · exact fun mirrors shared _ => pair.fresh_of_tablesMirror formed mirror mirrors shared
    · intro fresh
      exact pair.tablesMirror formed mirror apart absent
        (fun shared => fresh shared (absent shared))
  · exact ⟨fun _ => trivial, fun _ => destroyed.tablesMirror live mirror⟩

namespace GenericVatNetwork

variable {network : GenericVatNetwork}

/-- A further shared connect finds the entry. -/
theorem TablesMirror.connectsShared (mirror : network.TablesMirror) (formed : network.WellFormed)
    : network.ConnectsShared := by
  intro vat peer id entered
  obtain ⟨object, found, rfl, rfl, -⟩ := (mirror vat peer id).mp entered
  obtain ⟨-, peer, apart⟩ := formed.ends id object found
  simp [connectByVatId, peer, apart, entered]

/-- Attached connections are each other's entries. -/
theorem TablesMirror.partnersEntered (mirror : network.TablesMirror) (formed : network.WellFormed)
    : network.PartnersEntered := by
  intro id object other back found present attached _ shared plain
  have mate := formed.partners id object other found attached
  obtain rfl := Option.some.inj (mate.symm.trans present)
  exact
    ⟨(mirror _ _ id).mpr ⟨object, found, rfl, rfl, shared⟩,
      (mirror _ _ other).mpr ⟨_, present, rfl, rfl, plain⟩⟩

end GenericVatNetwork

/-- In every state of a run that only creates fresh pairs the tables mirror the live
connections, shared connects give the existing one and attached connections are entered; the
next operation keeps this exactly when it does not create a pair next to an older end.
-/
theorem vat_tables_mirror_connections {network : GenericVatNetwork}
    (reached : (vatNetworkSystem.guard FreshPair).Reachable network)
    : network.TablesMirror
      ∧ network.ConnectsShared
      ∧ network.PartnersEntered
      ∧ ∀ op after, op.run network = some after → (after.TablesMirror ↔ FreshPair network op) := by
  have invariant : network.WellFormed ∧ network.TablesMirror := by
    apply reached.invariant (fun network => network.WellFormed ∧ network.TablesMirror)
    · intro first start
      subst start
      refine ⟨⟨?_, ?_, ?_⟩, ?_⟩
      · exact fun id object found => by simp at found
      · exact fun id object found => by simp at found
      · exact fun id object other found => by simp at found
      · exact fun vat peer id => by simp [GenericVatNetwork.connectionTo]
    · intro before op after step held
      obtain ⟨fresh, step⟩ := step
      obtain ⟨formed, mirror⟩ := held
      exact
        ⟨op.run_wellFormed step formed,
          (op.run_tablesMirror_iff step formed mirror).mpr fresh⟩
  obtain ⟨formed, mirror⟩ := invariant
  exact
    ⟨mirror, mirror.connectsShared formed, mirror.partnersEntered formed,
      fun op after step => op.run_tablesMirror_iff step formed mirror⟩

/-- Witness: both ends of one connection, each the entry of its vat. -/
theorem vat_tables_mirror_connections_pair
    : ∃ network : GenericVatNetwork,
        network.connectionTo "A" "B" = some 0
        ∧ network.connectionTo "B" "A" = some 1
        ∧ network.TablesMirror := by
  let ops : List GenericVatOp :=
    [.add "A", .add "B", .connect "A" ⟨"B", false⟩, .accept "B", .connect "B" ⟨"A", false⟩]
  let checks (network : GenericVatNetwork) : Bool :=
    decide (network.connectionTo "A" "B" = some 0 ∧ network.connectionTo "B" "A" = some 1)
  have replayed
      : ∃ network, (vatNetworkSystem.guard FreshPair).Reachable network
          ∧ checks network = true :=
    Transition.exists_guarded_of_replay _ ops checks (by decide)
  obtain ⟨network, reached, checked⟩ := replayed
  obtain ⟨there, back⟩ := of_decide_eq_true checked
  exact ⟨network, there, back, (vat_tables_mirror_connections reached).1⟩

/-- `A` drops its end and connects again before `B` drops the old one, whose destructor then
erases the entry of the new one.
-/
theorem old_end_erases_new_entry
    : ¬ ∀ network : GenericVatNetwork, vatNetworkSystem.Reachable network →
        network.TablesMirror := by
  intro always
  let ops : List GenericVatOp :=
    [.add "A", .add "B", .connect "A" ⟨"B", false⟩, .accept "B", .release 0,
      .connect "A" ⟨"B", false⟩, .accept "B", .release 1]
  let checks (network : GenericVatNetwork) : Bool :=
    decide (network.connectionTo "B" "A" = none
      ∧ network.objects.lookup 3 = some ⟨"B", "A", false, some 2⟩)
  have replayed : ∃ network, vatNetworkSystem.Reachable network ∧ checks network = true :=
    Transition.exists_reachable_of_replay ops checks (by decide)
  obtain ⟨network, reached, checked⟩ := replayed
  obtain ⟨absent, live⟩ := of_decide_eq_true checked
  have entered := (always network reached "B" "A" 3).mpr ⟨_, live, rfl, rfl, rfl⟩
  rw [absent] at entered
  cases entered

end Capnp.Rpc
