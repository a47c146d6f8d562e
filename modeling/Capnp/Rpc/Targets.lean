import Capnp.Library.IdScan
import Capnp.Library.RefCount
import Capnp.Library.Transition

/-! The runtime's target table and the peers its targets keep alive.
A target id names a capability; loopback and network peers are owned by the targets
that reach through them, with one map from target to owner and one reference count an
owner, and a peer goes when its last owning target is dropped.
-/

namespace Capnp.Rpc

-----------------------------------------------------------------------------------------
-- The two ownership structures, one for loopback and one for network peers
-----------------------------------------------------------------------------------------

/-- `std::unordered_map::emplace`: an entry already under the key is kept. -/
def emplace {α : Type*} (table : Table UInt32 α) (key : UInt32) (value : α)
    : Table UInt32 α :=
  if key ∈ table then table else table.insert key value

/-- Emplacing adds at most its key. -/
theorem mem_emplace {α : Type*} {table : Table UInt32 α} {key other : UInt32} {value : α}
    (member : other ∈ emplace table key value)
    : other = key ∨ other ∈ table := by
  by_cases present : key ∈ table
  · exact Or.inr (by simpa only [emplace, present, if_true] using member)
  · simpa only [emplace, present, if_false, AList.mem_insert] using member

/-- One peer map with its owner map and owner counts. Peer objects are numbered in the
order they are put into the map; `destroyed` lists the objects whose destructor ran.
-/
structure PeerOwnership where
  peers : Table UInt32 Nat := ∅
  ownerByTarget : Table UInt32 UInt32 := ∅
  ownerRefCounts : Table UInt32 Nat := ∅
  created : Nat := 0
  destroyed : List Nat := []

/-- The three insertions made when a peer is put under its first target. -/
def adoptPeer (target : UInt32) (own : PeerOwnership) : PeerOwnership :=
  { own with
    peers := emplace own.peers target own.created
    ownerByTarget := emplace own.ownerByTarget target target
    ownerRefCounts := emplace own.ownerRefCounts target 1
    created := own.created + 1
    -- An occupied key leaves the new peer with nobody to own it.
    destroyed := if target ∈ own.peers then own.destroyed ++ [own.created] else own.destroyed }

def retainPeerOwnership (sourceTarget retainedTarget : UInt32) (own : PeerOwnership)
    : PeerOwnership :=
  match own.ownerByTarget.lookup sourceTarget with
  | none => own
  | some owner =>
      -- A missing count is first entered as 1 and then incremented like any other.
      let refCount := (own.ownerRefCounts.lookup owner).getD 1
      { own with
        ownerByTarget := emplace own.ownerByTarget retainedTarget owner
        ownerRefCounts := own.ownerRefCounts.insert owner (refCount + 1) }

def releasePeerOwnership (target : UInt32) (own : PeerOwnership) : PeerOwnership :=
  match own.ownerByTarget.lookup target with
  | none => own
  | some owner =>
      let own := { own with ownerByTarget := own.ownerByTarget.erase target }
      match own.ownerRefCounts.lookup owner with
      | none => own
      | some refCount =>
          if 1 < refCount then
            { own with ownerRefCounts := own.ownerRefCounts.insert owner (refCount - 1) }
          else
            { own with
              ownerRefCounts := own.ownerRefCounts.erase owner
              peers := own.peers.erase owner
              destroyed := own.destroyed ++ (own.peers.lookup owner).toList }

/-- The id counter and the first id from it on that the table does not use. A full table
is scanned without end; `fuel` bounds the scan.
-/
def allocateId {α : Type*} (table : Table UInt32 α) : Nat → UInt32 → Option (UInt32 × UInt32)
  | 0, _ => none
  | fuel + 1, next =>
      if next ∈ table then allocateId table fuel (next + 1) else some (next, next + 1)

/-- Allocating scans for an unused id. -/
theorem allocateId_eq_scan {α : Type*} (table : Table UInt32 α) (fuel : Nat) (next : UInt32)
    : allocateId table fuel next = IdScan.scan (fun id => id ∈ table) fuel next := by
  induction fuel generalizing next with
  | zero => rfl
  | succ fuel ih => rw [allocateId, IdScan.scan, ih]

/-- The scan length is enough: an id is found unless the table uses all of them. -/
theorem allocateId_isSome {α : Type*} (table : Table UInt32 α) (next : UInt32)
    (room : table.keys.length < 2 ^ 32)
    : (allocateId table (table.keys.length + 1) next).isSome := by
  rw [allocateId_eq_scan]
  exact IdScan.scan_isSome next (fun id used => AList.mem_keys.mp used) room

/-- An allocated id is unused, and the counter then stands right after it. -/
theorem allocateId_spec {α : Type*} {table : Table UInt32 α} {fuel : Nat}
    {next targetId counter : UInt32}
    (allocated : allocateId table fuel next = some (targetId, counter))
    : targetId ∉ table ∧ counter = targetId + 1 := by
  rw [allocateId_eq_scan] at allocated
  exact IdScan.scan_spec allocated

/-- The targets of a runtime and their peers. `allocated` counts the calls of `addTarget`. -/
structure RuntimeTargets (Cap : Type*) where
  targets : Table UInt32 Cap := ∅
  nextTargetId : UInt32 := 1
  loopback : PeerOwnership := {}
  network : PeerOwnership := {}
  allocated : Nat := 0

variable {Cap : Type*}

/-- `none` stands for the endless scan of a table that uses every id. -/
def addTarget (runtime : RuntimeTargets Cap) (cap : Cap)
    : Option (UInt32 × RuntimeTargets Cap) :=
  (allocateId runtime.targets (runtime.targets.keys.length + 1) runtime.nextTargetId).map
    (fun (targetId, next) =>
      (targetId,
        { runtime with
          targets := runtime.targets.insert targetId cap
          nextTargetId := next
          allocated := runtime.allocated + 1 }))

/-- The table after adding a target, whatever the id counter did. -/
theorem addTarget_spec {runtime after : RuntimeTargets Cap} {cap : Cap} {targetId : UInt32}
    (added : addTarget runtime cap = some (targetId, after))
    : targetId ∉ runtime.targets
      ∧ after
        = { runtime with
            targets := runtime.targets.insert targetId cap
            nextTargetId := targetId + 1
            allocated := runtime.allocated + 1 } := by
  obtain ⟨⟨foundId, counter⟩, found, eq⟩ := Option.map_eq_some_iff.mp added
  obtain ⟨fresh, rfl⟩ := allocateId_spec found
  simp only [Prod.mk.injEq] at eq
  obtain ⟨rfl, rfl⟩ := eq
  exact ⟨fresh, rfl⟩

def dropTargetIfPresent (runtime : RuntimeTargets Cap) (target : UInt32)
    : Bool × RuntimeTargets Cap :=
  (decide (target ∈ runtime.targets),
    { runtime with
      targets := runtime.targets.erase target
      loopback := releasePeerOwnership target runtime.loopback
      network := releasePeerOwnership target runtime.network })

def unknownTarget (target : UInt32) : String :=
  s!"unknown RPC target capability id: {target.toNat}"

/-- Both ownership structures record the new target as a further holder. -/
def retainOwners (sourceTarget retainedTarget : UInt32) (runtime : RuntimeTargets Cap)
    : RuntimeTargets Cap :=
  { runtime with
    loopback := retainPeerOwnership sourceTarget retainedTarget runtime.loopback
    network := retainPeerOwnership sourceTarget retainedTarget runtime.network }

def retainTarget (runtime : RuntimeTargets Cap) (target : UInt32)
    : Option (Except String UInt32 × RuntimeTargets Cap) :=
  match runtime.targets.lookup target with
  | none => some (.error (unknownTarget target), runtime)
  | some cap =>
      (addTarget runtime cap).map
        (fun (retained, runtime) => (.ok retained, retainOwners target retained runtime))

/-- `forwarder` is the forwarding server's capability, made from the target's. -/
def registerTailCallTarget (runtime : RuntimeTargets Cap) (forwarder : Cap → Cap)
    (target : UInt32)
    : Option (Except String UInt32 × RuntimeTargets Cap) :=
  match runtime.targets.lookup target with
  | none => some (.error (unknownTarget target), runtime)
  | some cap =>
      (addTarget runtime (forwarder cap)).map
        (fun (forwarderId, runtime) =>
          (.ok forwarderId, retainOwners target forwarderId runtime))

def releaseTarget (runtime : RuntimeTargets Cap) (target : UInt32)
    : Except String Unit × RuntimeTargets Cap :=
  let (present, runtime) := dropTargetIfPresent runtime target
  (if present then .ok () else .error (unknownTarget target), runtime)

/-- The targets before the first unknown one stay dropped when that one throws. -/
def releaseTargets (runtime : RuntimeTargets Cap)
    : List UInt32 → Except String Unit × RuntimeTargets Cap
  | [] => (.ok (), runtime)
  | target :: rest =>
      if target = 0 then releaseTargets runtime rest
      else
        let (present, runtime) := dropTargetIfPresent runtime target
        if present then releaseTargets runtime rest
        else (.error (unknownTarget target), runtime)

def dropRequestCaps (runtime : RuntimeTargets Cap) (requestCapIds : List UInt32)
    : RuntimeTargets Cap :=
  requestCapIds.foldl (fun runtime capId => (dropTargetIfPresent runtime capId).2) runtime

/-- `kj::HashSet::insert`, which throws when the row is there already. -/
def insertRow (rows : List UInt32) (row : UInt32) : Except String (List UInt32) :=
  if row ∈ rows then .error "inserted row already exists in table" else .ok (row :: rows)

/-- The set of the retained ids. Null entries are not put into it. -/
def retainedSet (retainedCaps : List UInt32) : Except String (List UInt32) :=
  (retainedCaps.filter (fun capId => capId != 0)).foldlM insertRow []

/-- The request capabilities that are not in the retained set. -/
def notRetained (requestCapIds retained : List UInt32) : List UInt32 :=
  requestCapIds.filter (fun capId => !retained.contains capId)

/-- `dropRequestCapsExcept` over a list of retained ids. The source takes a shortcut for
an empty list, and a repeated id throws before anything is dropped.
-/
def dropRequestCapsExcept (runtime : RuntimeTargets Cap)
    (requestCapIds retainedCaps : List UInt32)
    : Except String Unit × RuntimeTargets Cap :=
  if retainedCaps.isEmpty then (.ok (), dropRequestCaps runtime requestCapIds)
  else
    match retainedSet retainedCaps with
    | .error message => (.error message, runtime)
    | .ok retained => (.ok (), dropRequestCaps runtime (notRetained requestCapIds retained))

/-- `dropRequestCapsExcept` over one retained id, which also skips null ids. -/
def dropRequestCapsExceptOne (runtime : RuntimeTargets Cap)
    (requestCapIds : List UInt32) (retainedCapId : UInt32)
    : RuntimeTargets Cap :=
  dropRequestCaps runtime
    (requestCapIds.filter (fun capId => !(capId == 0 || capId == retainedCapId)))

/-- What dropping a target preserves, dropping a list of ids preserves, by list
induction.
-/
theorem dropRequestCaps_preserves (holds : RuntimeTargets Cap → Prop)
    {requestCapIds : List UInt32}
    (preserved
      : ∀ {runtime}, ∀ target ∈ requestCapIds,
          holds runtime → holds (dropTargetIfPresent runtime target).2)
    {runtime : RuntimeTargets Cap} (start : holds runtime)
    : holds (dropRequestCaps runtime requestCapIds) := by
  induction requestCapIds generalizing runtime with
  | nil => exact start
  | cons capId rest ih =>
      exact ih (fun target member => preserved target (List.mem_cons_of_mem _ member))
        (preserved capId List.mem_cons_self start)

/-- A batch release drops some of its ids, in order, also when an unknown one ends it
early, by list induction.
-/
theorem releaseTargets_eq_dropRequestCaps (runtime : RuntimeTargets Cap)
    (targets : List UInt32)
    : ∃ gone, gone ⊆ targets
        ∧ (releaseTargets runtime targets).2 = dropRequestCaps runtime gone := by
  induction targets generalizing runtime with
  | nil => exact ⟨[], List.Subset.refl _, rfl⟩
  | cons target rest ih =>
      unfold releaseTargets
      split
      · obtain ⟨gone, included, same⟩ := ih runtime
        exact ⟨gone, List.subset_cons_of_subset _ included, same⟩
      · dsimp only
        split
        · obtain ⟨gone, included, same⟩ := ih (dropTargetIfPresent runtime target).2
          exact ⟨target :: gone, List.cons_subset_cons _ included, same⟩
        · exact ⟨[target], by simp, rfl⟩

/-- A connected network peer's bootstrap capability becomes a target that owns the peer. -/
def connectTargetPeer (runtime : RuntimeTargets Cap) (cap : Cap)
    : Option (UInt32 × RuntimeTargets Cap) :=
  (addTarget runtime cap).map
    (fun (targetId, runtime) =>
      (targetId, { runtime with network := adoptPeer targetId runtime.network }))

/-- The loopback client's bootstrap capability becomes a target that owns the peer. -/
def registerLoopbackPeer (runtime : RuntimeTargets Cap) (cap : Cap)
    : Option (UInt32 × RuntimeTargets Cap) :=
  (addTarget runtime cap).map
    (fun (targetId, runtime) =>
      (targetId, { runtime with loopback := adoptPeer targetId runtime.loopback }))

-----------------------------------------------------------------------------------------
-- The operations on targets as one step function
-----------------------------------------------------------------------------------------

/-- The operations that touch the target table. Capabilities come from outside: a
connection attempt yields one or fails before it reaches the table, and `addCap` stands
for every registration without a peer (handlers, request and response capabilities).
-/
inductive TargetOp (Cap : Type*) where
  | addCap (cap : Cap)
  | connect (outcome : Except String Cap)
  | registerLoopback (bootstrapTarget : Option UInt32) (cap : Cap)
  | retain (target : UInt32)
  | registerTailCall (target : UInt32) (forwarder : Cap → Cap)
  | release (target : UInt32)
  | releaseMany (targets : List UInt32)
  | dropRequest (requestCapIds : List UInt32)
  | dropRequestExcept (requestCapIds retainedCaps : List UInt32)
  | dropRequestExceptOne (requestCapIds : List UInt32) (retainedCapId : UInt32)

/-- Results that carry no target id. -/
def withoutId {σ : Type*} (result : Except String Unit × σ)
    : Except String (Option UInt32) × σ :=
  (result.1.map (fun _ => none), result.2)

/-- Results that carry one target id. -/
def withId {σ : Type*} (result : Except String UInt32 × σ)
    : Except String (Option UInt32) × σ :=
  (result.1.map some, result.2)

/-- One operation: its answer and the state it leaves, also when it throws. -/
def TargetOp.run (runtime : RuntimeTargets Cap)
    : TargetOp Cap → Option (Except String (Option UInt32) × RuntimeTargets Cap)
  | .addCap cap => (addTarget runtime cap).map (fun (id, runtime) => (.ok (some id), runtime))
  | .connect (.error message) => some (.error message, runtime)
  | .connect (.ok cap) =>
      (connectTargetPeer runtime cap).map (fun (id, runtime) => (.ok (some id), runtime))
  | .registerLoopback bootstrapTarget cap =>
      match bootstrapTarget.filter (fun target => !decide (target ∈ runtime.targets)) with
      | some target => some (.error (unknownTarget target), runtime)
      | none =>
          (registerLoopbackPeer runtime cap).map
            (fun (id, runtime) => (.ok (some id), runtime))
  | .retain target => (retainTarget runtime target).map withId
  | .registerTailCall target forwarder =>
      (registerTailCallTarget runtime forwarder target).map withId
  | .release target => some (withoutId (releaseTarget runtime target))
  | .releaseMany targets => some (withoutId (releaseTargets runtime targets))
  | .dropRequest requestCapIds => some (.ok none, dropRequestCaps runtime requestCapIds)
  | .dropRequestExcept requestCapIds retainedCaps =>
      some (withoutId (dropRequestCapsExcept runtime requestCapIds retainedCaps))
  | .dropRequestExceptOne requestCapIds retainedCapId =>
      some (.ok none, dropRequestCapsExceptOne runtime requestCapIds retainedCapId)

/-- The ids an operation may take out of the target table. -/
def TargetOp.dropped : TargetOp Cap → List UInt32
  | .release target => [target]
  | .releaseMany targets => targets
  | .dropRequest requestCapIds => requestCapIds
  | .dropRequestExcept requestCapIds retainedCaps =>
      match retainedSet retainedCaps with
      | .error _ => []
      | .ok retained => notRetained requestCapIds retained
  | .dropRequestExceptOne requestCapIds retainedCapId =>
      requestCapIds.filter (fun capId => !(capId == 0 || capId == retainedCapId))
  | _ => []

/-- Inserting rows one by one keeps those of before and adds the others, by list induction. -/
theorem mem_of_insertRows {rows inserted : List UInt32} {before : List UInt32}
    (insert : rows.foldlM insertRow before = .ok inserted) {row : UInt32}
    : row ∈ inserted ↔ row ∈ before ∨ row ∈ rows := by
  induction rows generalizing before with
  | nil =>
      obtain rfl : before = inserted := Except.ok.inj insert
      simp
  | cons first rest ih =>
      rw [List.foldlM_cons, insertRow] at insert
      split_ifs at insert
      · cases insert
      · rw [ih insert, List.mem_cons, List.mem_cons]
        tauto

/-- Rows are inserted exactly when they are distinct and new, by list induction. -/
theorem isOk_insertRows (rows before : List UInt32)
    : (rows.foldlM insertRow before).isOk = true ↔ rows.Nodup ∧ rows.Disjoint before := by
  induction rows generalizing before with
  | nil => simp [pure, Except.pure, Except.isOk, Except.toBool]
  | cons first rest ih =>
      rw [List.foldlM_cons, insertRow, List.nodup_cons, List.disjoint_cons_left]
      split_ifs with present
      · simp [present, bind, Except.bind, Except.isOk, Except.toBool]
      · refine (ih (first :: before)).trans ?_
        rw [List.disjoint_cons_right]
        tauto

/-- The retained ids are those of the list but null. -/
theorem mem_retainedSet {retainedCaps retained : List UInt32}
    (set : retainedSet retainedCaps = .ok retained) {id : UInt32}
    : id ∈ retained ↔ id ∈ retainedCaps ∧ id ≠ 0 := by
  rw [mem_of_insertRows set, List.mem_filter]
  simp

/-- The set is there unless an id is repeated. -/
theorem isOk_retainedSet (retainedCaps : List UInt32)
    : (retainedSet retainedCaps).isOk = true
      ↔ (retainedCaps.filter (fun capId => capId != 0)).Nodup := by
  rw [retainedSet, isOk_insertRows]
  simp

/-- What `dropRequestCapsExcept` drops, also when it throws. -/
theorem snd_dropRequestCapsExcept (runtime : RuntimeTargets Cap)
    (requestCapIds retainedCaps : List UInt32)
    : (dropRequestCapsExcept runtime requestCapIds retainedCaps).2
      = dropRequestCaps runtime
          (TargetOp.dropRequestExcept requestCapIds retainedCaps : TargetOp Cap).dropped := by
  cases retainedCaps with
  | nil =>
      simp [dropRequestCapsExcept, TargetOp.dropped, retainedSet, notRetained, pure, Except.pure]
  | cons capId rest =>
      simp only [dropRequestCapsExcept, TargetOp.dropped, List.isEmpty_cons, Bool.false_eq_true,
        if_false]
      cases retainedSet (capId :: rest) <;> rfl

/-- All an operation can do to the targets: nothing, add one with or without an owner, or
drop some.
-/
inductive TargetEffect (runtime : RuntimeTargets Cap) (dropped : List UInt32)
    : RuntimeTargets Cap → Prop
  | unchanged : TargetEffect runtime dropped runtime
  | added {cap targetId after} (adding : addTarget runtime cap = some (targetId, after))
    : TargetEffect runtime dropped after
  | retained {cap targetId after} (source : UInt32)
    (adding : addTarget runtime cap = some (targetId, after))
    : TargetEffect runtime dropped (retainOwners source targetId after)
  | loopback {cap targetId after} (adding : addTarget runtime cap = some (targetId, after))
    : TargetEffect runtime dropped
        { after with loopback := adoptPeer targetId after.loopback }
  | network {cap targetId after} (adding : addTarget runtime cap = some (targetId, after))
    : TargetEffect runtime dropped
        { after with network := adoptPeer targetId after.network }
  | drops {gone : List UInt32} (included : gone ⊆ dropped)
    : TargetEffect runtime dropped (dropRequestCaps runtime gone)

/-- The one case analysis over the operations; what they preserve follows from it. -/
theorem TargetOp.run_effect {runtime after : RuntimeTargets Cap} {op : TargetOp Cap}
    {answer : Except String (Option UInt32)} (ran : op.run runtime = some (answer, after))
    : TargetEffect runtime op.dropped after := by
  cases op with
  | addCap cap =>
      obtain ⟨⟨targetId, added⟩, adding, eq⟩ := Option.map_eq_some_iff.mp ran
      obtain ⟨_, rfl⟩ := Prod.mk.inj eq
      exact .added adding
  | connect outcome =>
      cases outcome with
      | error message =>
          obtain ⟨_, rfl⟩ := Prod.mk.inj (Option.some.inj ran)
          exact .unchanged
      | ok cap =>
          obtain ⟨⟨targetId, connected⟩, connecting, eq⟩ := Option.map_eq_some_iff.mp ran
          obtain ⟨_, rfl⟩ := Prod.mk.inj eq
          obtain ⟨⟨addedId, added⟩, adding, eq⟩ := Option.map_eq_some_iff.mp connecting
          obtain ⟨rfl, rfl⟩ := Prod.mk.inj eq
          exact .network adding
  | registerLoopback bootstrapTarget cap =>
      simp only [TargetOp.run] at ran
      split at ran
      · obtain ⟨_, rfl⟩ := Prod.mk.inj (Option.some.inj ran)
        exact .unchanged
      · obtain ⟨⟨targetId, registered⟩, registering, eq⟩ := Option.map_eq_some_iff.mp ran
        obtain ⟨_, rfl⟩ := Prod.mk.inj eq
        obtain ⟨⟨addedId, added⟩, adding, eq⟩ := Option.map_eq_some_iff.mp registering
        obtain ⟨rfl, rfl⟩ := Prod.mk.inj eq
        exact .loopback adding
  | retain source =>
      obtain ⟨⟨result, retained⟩, retaining, eq⟩ := Option.map_eq_some_iff.mp ran
      obtain ⟨_, rfl⟩ := Prod.mk.inj eq
      unfold retainTarget at retaining
      split at retaining
      · obtain ⟨_, rfl⟩ := Prod.mk.inj (Option.some.inj retaining)
        exact .unchanged
      · obtain ⟨⟨addedId, added⟩, adding, eq⟩ := Option.map_eq_some_iff.mp retaining
        obtain ⟨_, rfl⟩ := Prod.mk.inj eq
        exact .retained source adding
  | registerTailCall source =>
      obtain ⟨⟨result, registered⟩, registering, eq⟩ := Option.map_eq_some_iff.mp ran
      obtain ⟨_, rfl⟩ := Prod.mk.inj eq
      unfold registerTailCallTarget at registering
      split at registering
      · obtain ⟨_, rfl⟩ := Prod.mk.inj (Option.some.inj registering)
        exact .unchanged
      · obtain ⟨⟨addedId, added⟩, adding, eq⟩ := Option.map_eq_some_iff.mp registering
        obtain ⟨_, rfl⟩ := Prod.mk.inj eq
        exact .retained source adding
  | release target =>
      obtain ⟨_, rfl⟩ := Prod.mk.inj (Option.some.inj ran)
      have included : [target] ⊆ (TargetOp.release target : TargetOp Cap).dropped :=
        List.Subset.refl _
      exact .drops included
  | releaseMany targets =>
      obtain ⟨_, rfl⟩ := Prod.mk.inj (Option.some.inj ran)
      obtain ⟨gone, included, same⟩ := releaseTargets_eq_dropRequestCaps runtime targets
      exact same ▸ .drops included
  | dropRequest requestCapIds =>
      obtain ⟨_, rfl⟩ := Prod.mk.inj (Option.some.inj ran)
      exact .drops (List.Subset.refl _)
  | dropRequestExcept requestCapIds retainedCaps =>
      obtain ⟨_, rfl⟩ := Prod.mk.inj (Option.some.inj ran)
      rw [snd_dropRequestCapsExcept]
      exact .drops (List.Subset.refl _)
  | dropRequestExceptOne requestCapIds retainedCapId =>
      obtain ⟨_, rfl⟩ := Prod.mk.inj (Option.some.inj ran)
      exact .drops (List.Subset.refl _)

/-- A new target never takes the id of an old one. -/
theorem lookup_addTarget {runtime after : RuntimeTargets Cap} {cap : Cap}
    {added target : UInt32} (adding : addTarget runtime cap = some (added, after))
    {held : Cap} (found : runtime.targets.lookup target = some held)
    : after.targets.lookup target = some held := by
  obtain ⟨fresh, rfl⟩ := addTarget_spec adding
  have different : target ≠ added := by
    rintro rfl
    exact fresh (AList.lookup_isSome.mp (by simp [found]))
  exact (AList.lookup_insert_ne different).trans found

/-- A target keeps its capability through every operation that does not drop it. -/
theorem TargetEffect.keeps {runtime after : RuntimeTargets Cap} {dropped : List UInt32}
    (effect : TargetEffect runtime dropped after)
    {target : UInt32} (spared : target ∉ dropped) {cap : Cap}
    (found : runtime.targets.lookup target = some cap)
    : after.targets.lookup target = some cap := by
  cases effect with
  | unchanged => exact found
  | added adding => exact lookup_addTarget adding found
  | retained source adding => exact lookup_addTarget adding found
  | loopback adding => exact lookup_addTarget adding found
  | network adding => exact lookup_addTarget adding found
  | drops included =>
      refine dropRequestCaps_preserves
        (fun state => state.targets.lookup target = some cap) ?_ found
      intro before other member kept
      have different : target ≠ other := fun same => spared (same ▸ included member)
      exact (AList.lookup_erase_ne different).trans kept

/-- Runs of target operations from an empty runtime. -/
def targetSystem (Cap : Type*) : Transition.System (RuntimeTargets Cap) (TargetOp Cap) :=
  .ofFunction {} (fun runtime op => (op.run runtime).map Prod.snd)

end Capnp.Rpc
