import Capnp.Library.IdScan
import Capnp.Library.Table
import Capnp.Library.Transition

/-! The table of payload references that all runtimes share. An entry holds a message and its
capabilities, as a pair of Lean byte arrays or as bytes of its own, for one runtime. The
reference counts of the byte arrays are Lean's; the table raises and lowers them.
-/

namespace Capnp.Rpc

/-- A Lean byte array, by its address. -/
abbrev LeanObjectRef := Nat

/-- The bytes of a raw call result. -/
structure RuntimePayloadRawBytes where
  messageWords : List UInt8
  capBytes : List UInt8
deriving DecidableEq

/-- Null pointers are `none`. -/
structure RuntimePayloadRefEntry where
  runtimeId : UInt64
  messageBytes : Option LeanObjectRef := none
  capBytes : Option LeanObjectRef := none
  rawBytes : Option RuntimePayloadRawBytes := none
deriving DecidableEq

/-- The byte arrays of an entry that has both of them. -/
def RuntimePayloadRefEntry.leanBytes (entry : RuntimePayloadRefEntry) : List LeanObjectRef :=
  match entry.messageBytes, entry.capBytes with
  | some messageBytes, some capBytes => [messageBytes, capBytes]
  | _, _ => []

/-- The table and its id counter, with the calls of `lean_inc` and `lean_dec` that were made.
`takenOver` lists the references that callers left to the table, `retained` those that
`retainRuntimePayloadRef` made for its callers.
-/
structure RuntimePayloadRefs where
  refs : Table UInt32 RuntimePayloadRefEntry := ∅
  nextId : UInt32 := 1
  incs : List LeanObjectRef := []
  decs : List LeanObjectRef := []
  takenOver : List LeanObjectRef := []
  retained : List LeanObjectRef := []

namespace RuntimePayloadRefs

/-- `none` stands for the endless scan of a table that uses every id but 0. -/
def allocateRuntimePayloadRefId (table : RuntimePayloadRefs)
    : Option (UInt32 × RuntimePayloadRefs) :=
  (IdScan.scan (fun id => id = 0 ∨ id ∈ table.refs) (table.refs.keys.length + 2) table.nextId).map
    (fun (id, next) => (id, { table with nextId := next }))

/-- An entry is put under a new id. -/
def addEntry (entry : RuntimePayloadRefEntry) (table : RuntimePayloadRefs)
    : Option (UInt32 × RuntimePayloadRefs) :=
  table.allocateRuntimePayloadRefId.map
    (fun (id, table) => (id, { table with refs := table.refs.insert id entry }))

/-- The table's references to the two inputs are new ones or the caller's. -/
def withInputs (table : RuntimePayloadRefs) (inputs : List LeanObjectRef) (retainInputs : Bool)
    : RuntimePayloadRefs :=
  if retainInputs then { table with incs := table.incs ++ inputs }
  else { table with takenOver := table.takenOver ++ inputs }

def registerRuntimePayloadRef (runtimeId : UInt64) (messageBytes capBytes : Option LeanObjectRef)
    (retainInputs : Bool) (table : RuntimePayloadRefs)
    : Option (Except String UInt32 × RuntimePayloadRefs) :=
  match messageBytes, capBytes with
  | some messageBytes, some capBytes =>
      let table := table.withInputs [messageBytes, capBytes] retainInputs
      (table.addEntry
          { runtimeId, messageBytes := some messageBytes, capBytes := some capBytes }).map
        (fun (id, table) => (.ok id, table))
  | _, _ => some (.error "runtime payload ref requires message and cap byte arrays", table)

def registerRuntimePayloadRefFromRawCallResult (runtimeId : UInt64)
    (result : RuntimePayloadRawBytes) (table : RuntimePayloadRefs)
    : Option (Except String UInt32 × RuntimePayloadRefs) :=
  (table.addEntry { runtimeId, rawBytes := some result }).map (fun (id, table) => (.ok id, table))

/-- What is handed out is the entry's content, with references of its own. -/
def retainRuntimePayloadRef (payloadRefId : UInt32) (table : RuntimePayloadRefs)
    : Option RuntimePayloadRefEntry × RuntimePayloadRefs :=
  match table.refs.lookup payloadRefId with
  | none => (none, table)
  | some entry =>
      (some entry,
        { table with
          incs := table.incs ++ entry.leanBytes
          retained := table.retained ++ entry.leanBytes })

/-- An entry is removed and its references are given back. -/
def dropEntry (table : RuntimePayloadRefs) (id : UInt32) (entry : RuntimePayloadRefEntry)
    : RuntimePayloadRefs :=
  { table with refs := table.refs.erase id, decs := table.decs ++ entry.leanBytes }

def releaseRuntimePayloadRef (runtimeId : UInt64) (payloadRefId : UInt32)
    (table : RuntimePayloadRefs)
    : Except String Unit × RuntimePayloadRefs :=
  match table.refs.lookup payloadRefId with
  | none => (.error "unknown runtime payload ref id", table)
  | some entry =>
      if entry.runtimeId ≠ runtimeId then
        (.error "runtime payload ref belongs to a different Capnp.Rpc runtime", table)
      else (.ok (), table.dropEntry payloadRefId entry)

def releaseRuntimePayloadRefsForRuntime (runtimeId : UInt64) (table : RuntimePayloadRefs)
    : Nat × RuntimePayloadRefs :=
  table.refs.entries.foldl
    (fun (released, table) entry =>
      if entry.2.runtimeId = runtimeId then (released + 1, table.dropEntry entry.1 entry.2)
      else (released, table))
    (0, table)

end RuntimePayloadRefs

-----------------------------------------------------------------------------------------
-- The operations as one step function
-----------------------------------------------------------------------------------------

/-- The calls that the table serves, one at a time under its mutex. -/
inductive PayloadRefOp where
  | register (runtimeId : UInt64) (messageBytes capBytes : Option LeanObjectRef)
    (retainInputs : Bool)
  | registerRaw (runtimeId : UInt64) (result : RuntimePayloadRawBytes)
  | retain (payloadRefId : UInt32)
  | release (runtimeId : UInt64) (payloadRefId : UInt32)
  | releaseForRuntime (runtimeId : UInt64)

open RuntimePayloadRefs in
/-- The state that a call leaves, also when it fails. -/
def PayloadRefOp.run (table : RuntimePayloadRefs) : PayloadRefOp → Option RuntimePayloadRefs
  | .register runtimeId messageBytes capBytes retainInputs =>
      (table.registerRuntimePayloadRef runtimeId messageBytes capBytes retainInputs).map Prod.snd
  | .registerRaw runtimeId result =>
      (table.registerRuntimePayloadRefFromRawCallResult runtimeId result).map Prod.snd
  | .retain payloadRefId => some (table.retainRuntimePayloadRef payloadRefId).2
  | .release runtimeId payloadRefId =>
      some (table.releaseRuntimePayloadRef runtimeId payloadRefId).2
  | .releaseForRuntime runtimeId =>
      some (table.releaseRuntimePayloadRefsForRuntime runtimeId).2

/-- Runs of calls from the empty table. -/
def payloadRefSystem : Transition.System RuntimePayloadRefs PayloadRefOp :=
  .ofFunction {} (fun table op => op.run table)

-----------------------------------------------------------------------------------------
-- What each call does
-----------------------------------------------------------------------------------------

namespace RuntimePayloadRefs

/-- A new entry: its id was handed out to nobody, and everything else stays. -/
structure Adds (before : RuntimePayloadRefs) (entry : RuntimePayloadRefEntry) (id : UInt32)
    (after : RuntimePayloadRefs)
    : Prop where
  nonzero : id ≠ 0
  fresh : id ∉ before.refs
  refs : after.refs = before.refs.insert id entry
  incs : after.incs = before.incs
  decs : after.decs = before.decs
  takenOver : after.takenOver = before.takenOver
  retained : after.retained = before.retained

/-- An entry is added under an unused id. -/
theorem addEntry_adds {before after : RuntimePayloadRefs} {entry : RuntimePayloadRefEntry}
    {id : UInt32} (added : before.addEntry entry = some (id, after))
    : Adds before entry id after := by
  obtain ⟨⟨found, counted⟩, allocated, same⟩ := Option.map_eq_some_iff.mp added
  obtain ⟨rfl, rfl⟩ := Prod.mk.inj same
  obtain ⟨⟨scanned, next⟩, found, same⟩ := Option.map_eq_some_iff.mp allocated
  obtain ⟨rfl, rfl⟩ := Prod.mk.inj same
  obtain ⟨unused, -⟩ := IdScan.scan_spec found
  obtain ⟨nonzero, fresh⟩ := not_or.mp unused
  exact ⟨nonzero, fresh, rfl, rfl, rfl, rfl, rfl⟩

/-- An id is found as long as fewer than 2^32 - 1 entries are live. -/
theorem addEntry_isSome {table : RuntimePayloadRefs} (room : table.refs.keys.length + 1 < 2 ^ 32)
    (entry : RuntimePayloadRefEntry)
    : (table.addEntry entry).isSome := by
  have covers (id : UInt32) (used : id = 0 ∨ id ∈ table.refs) : id ∈ 0 :: table.refs.keys :=
    List.mem_cons.mpr (used.imp_right AList.mem_keys.mp)
  have found := IdScan.scan_isSome table.nextId covers (by simpa using room)
  simpa [addEntry, allocateRuntimePayloadRefId] using found

/-- A registration adds an entry for the two arrays, or rejects a null one and changes nothing. -/
inductive Registers (before : RuntimePayloadRefs) (runtimeId : UInt64) (retainInputs : Bool)
    : Option LeanObjectRef → Option LeanObjectRef → Except String UInt32 → RuntimePayloadRefs → Prop
  | added {messageBytes capBytes id after}
    (adds
      : Adds (before.withInputs [messageBytes, capBytes] retainInputs)
          { runtimeId, messageBytes := some messageBytes, capBytes := some capBytes } id after)
    : Registers before runtimeId retainInputs (some messageBytes) (some capBytes) (.ok id) after
  | rejected {messageBytes capBytes} (null : messageBytes = none ∨ capBytes = none)
    (reason : String)
    : Registers before runtimeId retainInputs messageBytes capBytes (.error reason) before

/-- Registering fails and keeps nothing, or adds an entry that holds its inputs. -/
theorem register_cases {before after : RuntimePayloadRefs} {runtimeId : UInt64}
    {messageBytes capBytes : Option LeanObjectRef} {retainInputs : Bool}
    {answer : Except String UInt32}
    (registering
      : before.registerRuntimePayloadRef runtimeId messageBytes capBytes retainInputs
        = some (answer, after))
    : Registers before runtimeId retainInputs messageBytes capBytes answer after := by
  unfold registerRuntimePayloadRef at registering
  split at registering
  · obtain ⟨⟨id, left⟩, added, same⟩ := Option.map_eq_some_iff.mp registering
    obtain ⟨rfl, rfl⟩ := Prod.mk.inj same
    exact .added (addEntry_adds added)
  · next missing =>
      obtain ⟨rfl, rfl⟩ := Prod.mk.inj (Option.some.inj registering)
      refine .rejected ?_ _
      cases messageBytes with
      | none => exact .inl rfl
      | some messageBytes =>
          cases capBytes with
          | none => exact .inr rfl
          | some capBytes => exact absurd rfl (missing messageBytes capBytes rfl)

/-- Registering a raw result adds an entry or fails. -/
theorem registerRaw_adds {before after : RuntimePayloadRefs} {runtimeId : UInt64}
    {result : RuntimePayloadRawBytes} {answer : Except String UInt32}
    (registering
      : before.registerRuntimePayloadRefFromRawCallResult runtimeId result = some (answer, after))
    : ∃ id, answer = .ok id ∧ Adds before { runtimeId, rawBytes := some result } id after := by
  obtain ⟨⟨id, left⟩, added, same⟩ := Option.map_eq_some_iff.mp registering
  obtain ⟨rfl, rfl⟩ := Prod.mk.inj same
  exact ⟨id, rfl, addEntry_adds added⟩

/-- The entries of one runtime. -/
def entriesOf (runtimeId : UInt64) (table : RuntimePayloadRefs)
    : List (Sigma fun _ : UInt32 => RuntimePayloadRefEntry) :=
  table.refs.entries.filter (fun entry => entry.2.runtimeId = runtimeId)

/-- Dropping entries one after the other, by induction on them. -/
theorem foldl_dropEntry (table : RuntimePayloadRefs)
    (removed : List (Sigma fun _ : UInt32 => RuntimePayloadRefEntry))
    : removed.foldl (fun table entry => table.dropEntry entry.1 entry.2) table
      = { table with
          refs := (removed.map Sigma.fst).foldl (fun refs id => refs.erase id) table.refs
          decs := table.decs ++ removed.flatMap (fun entry => entry.2.leanBytes) } := by
  induction removed generalizing table with
  | nil => simp
  | cons first rest ih =>
      rw [List.foldl_cons, ih]
      simp [dropEntry]

/-- The loop over the table counts and drops the entries of the runtime. -/
theorem releaseForRuntime_eq (runtimeId : UInt64) (table : RuntimePayloadRefs)
    : table.releaseRuntimePayloadRefsForRuntime runtimeId
      = ((table.entriesOf runtimeId).length,
          (table.entriesOf runtimeId).foldl
            (fun table entry => table.dropEntry entry.1 entry.2) table) := by
  have loop (entries : List (Sigma fun _ : UInt32 => RuntimePayloadRefEntry)) (released : Nat)
      (table : RuntimePayloadRefs)
      : entries.foldl
          (fun (released, table) entry =>
            if entry.2.runtimeId = runtimeId then (released + 1, table.dropEntry entry.1 entry.2)
            else (released, table))
          (released, table)
        = (released + (entries.filter (fun entry => entry.2.runtimeId = runtimeId)).length,
            (entries.filter (fun entry => entry.2.runtimeId = runtimeId)).foldl
              (fun table entry => table.dropEntry entry.1 entry.2) table) := by
    induction entries generalizing released table with
    | nil => rfl
    | cons first rest ih =>
        by_cases own : first.2.runtimeId = runtimeId
        · simp only [List.foldl_cons, own, if_true, ih, List.filter_cons, decide_true,
            List.length_cons, Nat.add_assoc, Nat.add_comm 1]
        · simp only [List.foldl_cons, own, if_false, ih, List.filter_cons, decide_false,
            Bool.false_eq_true]
  rw [releaseRuntimePayloadRefsForRuntime, loop, Nat.zero_add]
  rfl

/-- The entries of a runtime by their ids. -/
theorem mem_entriesOf {table : RuntimePayloadRefs} {runtimeId : UInt64} {id : UInt32}
    {entry : RuntimePayloadRefEntry}
    : ⟨id, entry⟩ ∈ table.entriesOf runtimeId
      ↔ table.refs.lookup id = some entry ∧ entry.runtimeId = runtimeId := by
  rw [entriesOf, List.mem_filter, decide_eq_true_eq, ← AList.mem_lookup_iff]
  rfl

/-- The ids of a runtime's entries differ. -/
theorem nodup_entriesOf (table : RuntimePayloadRefs) (runtimeId : UInt64)
    : ((table.entriesOf runtimeId).map Sigma.fst).Nodup :=
  table.refs.keys_nodup.sublist (List.filter_sublist.map Sigma.fst)

/-- Exactly the entries of the runtime are gone. -/
theorem lookup_releaseForRuntime (table : RuntimePayloadRefs) (runtimeId : UInt64) (id : UInt32)
    : (table.releaseRuntimePayloadRefsForRuntime runtimeId).2.refs.lookup id
      = (table.refs.lookup id).filter (fun entry => entry.runtimeId ≠ runtimeId) := by
  rw [releaseForRuntime_eq, foldl_dropEntry]
  simp only [Table.lookup_foldl_erase]
  have listed : id ∈ (table.entriesOf runtimeId).map Sigma.fst
      ↔ ∃ entry, table.refs.lookup id = some entry ∧ entry.runtimeId = runtimeId := by
    simp only [List.mem_map, Sigma.exists, mem_entriesOf]
    constructor
    · rintro ⟨key, entry, own, rfl⟩
      exact ⟨entry, own⟩
    · rintro ⟨entry, own⟩
      exact ⟨id, entry, own, rfl⟩
  cases found : table.refs.lookup id with
  | none => simp
  | some entry =>
      by_cases own : entry.runtimeId = runtimeId
      · rw [if_pos (listed.mpr ⟨entry, found, own⟩)]
        simp [Option.filter, own]
      · rw [if_neg]
        · simp [Option.filter, own]
        · rw [listed, found]
          rintro ⟨other, same, its⟩
          exact own (Option.some.inj same ▸ its)

-----------------------------------------------------------------------------------------
-- The references over a whole run
-----------------------------------------------------------------------------------------

/-- The references that the live entries stand for. -/
def held (table : RuntimePayloadRefs) : List LeanObjectRef :=
  (Table.values table.refs).flatMap RuntimePayloadRefEntry.leanBytes

/-- No entry has the id 0, and every reference that was left to the table or made by it is held
by a live entry, was given back, or was made for a retain.
-/
structure Kept (table : RuntimePayloadRefs) : Prop where
  nonzero : 0 ∉ table.refs
  references
    : (table.takenOver ++ table.incs).Perm (table.held ++ table.decs ++ table.retained)

/-- Nothing is held at first. -/
theorem Kept.initial : Kept {} where
  nonzero := by simp
  references := .nil

/-- A new entry holds the references that came with it. -/
theorem Adds.kept {before after : RuntimePayloadRefs} {entry : RuntimePayloadRefEntry}
    {id : UInt32} (adds : Adds before entry id after) (nonzero : 0 ∉ before.refs)
    (references
      : (before.takenOver ++ before.incs).Perm
          (entry.leanBytes ++ (before.held ++ before.decs ++ before.retained)))
    : after.Kept where
  nonzero := by
    rw [adds.refs, AList.mem_insert]
    exact fun member => member.elim (fun same => adds.nonzero same.symm) nonzero
  references := by
    have held : after.held = entry.leanBytes ++ before.held := by
      rw [RuntimePayloadRefs.held, adds.refs, Table.values_insert_fresh adds.fresh,
        List.flatMap_cons]
      rfl
    rw [adds.takenOver, adds.incs, adds.decs, adds.retained, held]
    simpa only [List.append_assoc] using references

/-- Registering keeps the references counted. -/
theorem Kept.register {before after : RuntimePayloadRefs} {runtimeId : UInt64}
    {retainInputs : Bool} {messageBytes capBytes : Option LeanObjectRef}
    {answer : Except String UInt32} (kept : before.Kept)
    (registers : Registers before runtimeId retainInputs messageBytes capBytes answer after)
    : after.Kept := by
  cases registers with
  | rejected => exact kept
  | added adds =>
      have counted := List.perm_iff_count.mp kept.references
      cases retainInputs with
      | false =>
          refine adds.kept kept.nonzero (List.perm_iff_count.mpr (fun object => ?_))
          have count := counted object
          simp only [withInputs, Bool.false_eq_true, if_false, held, List.count_append,
            RuntimePayloadRefEntry.leanBytes] at count ⊢
          omega
      | true =>
          refine adds.kept kept.nonzero (List.perm_iff_count.mpr (fun object => ?_))
          have count := counted object
          simp only [withInputs, if_true, held, List.count_append,
            RuntimePayloadRefEntry.leanBytes] at count ⊢
          omega

/-- Entries that are dropped give back the references they held. -/
theorem Kept.drop {table : RuntimePayloadRefs} (kept : table.Kept)
    {removed : List (Sigma fun _ : UInt32 => RuntimePayloadRefEntry)}
    (distinct : (removed.map Sigma.fst).Nodup)
    (present : ∀ entry ∈ removed, table.refs.lookup entry.1 = some entry.2)
    : (removed.foldl (fun table entry => table.dropEntry entry.1 entry.2) table).Kept := by
  rw [foldl_dropEntry]
  constructor
  · rw [← AList.lookup_eq_none, Table.lookup_foldl_erase, AList.lookup_eq_none.mpr kept.nonzero,
      ite_self]
  · have moved :=
      (Table.values_perm_foldl_erase distinct present).flatMap_right
        RuntimePayloadRefEntry.leanBytes
    rw [List.flatMap_append, List.flatMap_map] at moved
    refine List.perm_iff_count.mpr (fun object => ?_)
    have before := List.perm_iff_count.mp kept.references object
    have after := List.perm_iff_count.mp moved object
    simp only [held, List.count_append] at before after ⊢
    omega

/-- So does a release. -/
theorem Kept.release {table : RuntimePayloadRefs} (kept : table.Kept) (runtimeId : UInt64)
    (payloadRefId : UInt32)
    : (table.releaseRuntimePayloadRef runtimeId payloadRefId).2.Kept := by
  unfold releaseRuntimePayloadRef
  cases found : table.refs.lookup payloadRefId with
  | none => exact kept
  | some entry =>
      by_cases own : entry.runtimeId = runtimeId
      · simp only [own, ne_eq, not_true_eq_false, if_false]
        let removed : List (Sigma fun _ : UInt32 => RuntimePayloadRefEntry) :=
          [⟨payloadRefId, entry⟩]
        have distinct : (removed.map Sigma.fst).Nodup := List.nodup_singleton payloadRefId
        exact kept.drop distinct (List.forall_mem_singleton.mpr found)
      · simpa only [ne_eq, own, not_false_eq_true, if_true] using kept

/-- So does the release of all that a runtime has. -/
theorem Kept.releaseForRuntime {table : RuntimePayloadRefs} (kept : table.Kept)
    (runtimeId : UInt64)
    : (table.releaseRuntimePayloadRefsForRuntime runtimeId).2.Kept := by
  rw [releaseForRuntime_eq]
  exact kept.drop (nodup_entriesOf table runtimeId)
    (fun entry member => (mem_entriesOf.mp member).1)

/-- So does a retain. -/
theorem Kept.retain {table : RuntimePayloadRefs} (kept : table.Kept) (payloadRefId : UInt32)
    : (table.retainRuntimePayloadRef payloadRefId).2.Kept := by
  unfold retainRuntimePayloadRef
  cases table.refs.lookup payloadRefId with
  | none => exact kept
  | some entry =>
      refine ⟨kept.nonzero, ?_⟩
      have both := kept.references.append_right entry.leanBytes
      simpa only [held, List.append_assoc] using both

/-- The books balance in every state that is reached, by induction over the run. -/
theorem kept_of_reachable {table : RuntimePayloadRefs}
    (reached : payloadRefSystem.Reachable table)
    : table.Kept := by
  refine reached.invariant Kept ?_ ?_
  · rintro first rfl
    exact .initial
  · intro before op after step kept
    cases op with
    | register runtimeId messageBytes capBytes retainInputs =>
        obtain ⟨⟨answer, left⟩, registering, rfl⟩ := Option.map_eq_some_iff.mp step
        exact kept.register (register_cases registering)
    | registerRaw runtimeId result =>
        obtain ⟨⟨answer, left⟩, registering, rfl⟩ := Option.map_eq_some_iff.mp step
        obtain ⟨id, -, adds⟩ := registerRaw_adds registering
        exact adds.kept kept.nonzero kept.references
    | retain payloadRefId =>
        obtain rfl := Option.some.inj step
        exact kept.retain payloadRefId
    | release runtimeId payloadRefId =>
        obtain rfl := Option.some.inj step
        exact kept.release runtimeId payloadRefId
    | releaseForRuntime runtimeId =>
        obtain rfl := Option.some.inj step
        exact kept.releaseForRuntime runtimeId

/-- What the calls do to a table: the ids handed out, the entries removed, and the references
raised and lowered.
-/
structure Serves (table : RuntimePayloadRefs) : Prop where
  registers
    : ∀ {runtimeId messageBytes capBytes retainInputs answer after},
        table.registerRuntimePayloadRef runtimeId messageBytes capBytes retainInputs
          = some (answer, after) →
        Registers table runtimeId retainInputs messageBytes capBytes answer after
  registersRaw
    : ∀ {runtimeId result answer after},
        table.registerRuntimePayloadRefFromRawCallResult runtimeId result
          = some (answer, after) →
        ∃ id, answer = .ok id ∧ Adds table { runtimeId, rawBytes := some result } id after
  finds
    : table.refs.keys.length + 1 < 2 ^ 32 → ∀ entry, (table.addEntry entry).isSome
  releaseUnknown
    : ∀ {runtimeId id}, id ∉ table.refs →
        ∃ reason, table.releaseRuntimePayloadRef runtimeId id = (.error reason, table)
  releaseForeign
    : ∀ {runtimeId id entry}, table.refs.lookup id = some entry → entry.runtimeId ≠ runtimeId →
        ∃ reason, table.releaseRuntimePayloadRef runtimeId id = (.error reason, table)
  releaseOwn
    : ∀ {id entry}, table.refs.lookup id = some entry →
        table.releaseRuntimePayloadRef entry.runtimeId id
        = (.ok (),
            { table with
              refs := table.refs.erase id
              decs := table.decs ++ entry.leanBytes })
  releaseForRuntime
    : ∀ runtimeId,
        ∃ refs,
          table.releaseRuntimePayloadRefsForRuntime runtimeId
            = ((table.entriesOf runtimeId).length,
                { table with
                  refs := refs
                  decs := table.decs
                    ++ (table.entriesOf runtimeId).flatMap (fun entry => entry.2.leanBytes) })
          ∧ ∀ id,
              refs.lookup id
              = (table.refs.lookup id).filter (fun entry => entry.runtimeId ≠ runtimeId)
  retains
    : ∀ {id entry}, table.refs.lookup id = some entry →
        table.retainRuntimePayloadRef id
        = (some entry,
            { table with
              incs := table.incs ++ entry.leanBytes
              retained := table.retained ++ entry.leanBytes })
  retainUnknown : ∀ {id}, id ∉ table.refs → table.retainRuntimePayloadRef id = (none, table)

/-- In every run ids are fresh and not 0, only owners release, a bulk release takes exactly the
entries of its runtime, and every reference of the table is given back once, with its entry.
-/
theorem payloadRefs_kept {table : RuntimePayloadRefs}
    (reached : payloadRefSystem.Reachable table)
    : table.Kept ∧ table.Serves := by
  refine ⟨kept_of_reachable reached, ?_⟩
  refine {
    registers := register_cases
    registersRaw := registerRaw_adds
    finds := addEntry_isSome
    releaseUnknown := ?_
    releaseForeign := ?_
    releaseOwn := ?_
    releaseForRuntime := ?_
    retains := ?_
    retainUnknown := ?_
  }
  · intro runtimeId id unknown
    exact ⟨_, by rw [releaseRuntimePayloadRef, AList.lookup_eq_none.mpr unknown]⟩
  · intro runtimeId id entry found foreign
    exact ⟨_, by rw [releaseRuntimePayloadRef, found]; exact if_pos foreign⟩
  · intro id entry found
    rw [releaseRuntimePayloadRef, found]
    exact if_neg (not_not_intro rfl)
  · intro runtimeId
    have lookups := lookup_releaseForRuntime table runtimeId
    rw [releaseForRuntime_eq, foldl_dropEntry] at lookups ⊢
    exact ⟨_, rfl, lookups⟩
  · intro id entry found
    rw [retainRuntimePayloadRef, found]
  · intro id unknown
    rw [retainRuntimePayloadRef, AList.lookup_eq_none.mpr unknown]

/-- A run with a pair left to runtime 5, one retained for 6, a retain, a foreign release and the
bulk release of 5, after which the entry of 6 is left.
-/
theorem payloadRefs_kept_two_runtimes
    : ∃ table,
        payloadRefSystem.Reachable table
        ∧ table.decs = [10, 11]
        ∧ table.refs.keys = [2]
        ∧ table.Kept := by
  let calls : List PayloadRefOp :=
    [.register 5 (some 10) (some 11) false, .register 6 (some 10) (some 12) true, .retain 1,
      .release 6 1, .releaseForRuntime 5]
  let checks (table : RuntimePayloadRefs) : Bool :=
    decide (table.decs = [10, 11]) && decide (table.refs.keys = [2])
  have replayed : ∃ table, payloadRefSystem.Reachable table ∧ checks table = true :=
    Transition.exists_reachable_of_replay calls checks (by decide)
  obtain ⟨table, reached, checked⟩ := replayed
  simp only [checks, Bool.and_eq_true, decide_eq_true_eq] at checked
  exact ⟨table, reached, checked.1, checked.2, (payloadRefs_kept reached).1⟩

end RuntimePayloadRefs

end Capnp.Rpc
