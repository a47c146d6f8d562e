import Capnp.Rpc.IdCodecs
import Capnp.Runtime.CheckedReaders
import Capnp.Runtime.Framing

/-! How the response to a forwarded call reaches the caller. The bridge flattens the response
the way it does for Lean, where every capability becomes a target, and decodes the result by
looking the new targets up again. Nobody else gets to know their ids.
-/

namespace Capnp.Rpc

open ByteString (uint32Le ofUint32Le)

variable {Cap Value : Type}

-----------------------------------------------------------------------------------------
-- Values of root pointers
-----------------------------------------------------------------------------------------

/-- The serialization library for what a reader finds at a root pointer, capabilities included.
Copying a value into a message fills a capability table in the order of its pointers; what is
copied back from that message with that table is the value.
-/
structure PayloadLibrary (Cap Value : Type) where
  capTable : Value → List (Option Cap)
  messageToFlatArray : Value → List UInt8
  readMessage : List UInt8 → Except String Unit
  copyRoot : List (Option Cap) → List UInt8 → Except String Value
  copied
    : ∀ {value copy}, copyRoot (capTable value) (messageToFlatArray value) = .ok copy → copy = value

namespace PayloadLibrary

/-- The same library where only its checks matter. -/
def checks (library : PayloadLibrary Cap Value) (caps : List (Option Cap)) : MessageLibrary where
  readMessage := library.readMessage
  copyRoot := fun bytes => (library.copyRoot caps bytes).map (fun _ => ())

/-- The library reads the message of a value back, as it does up to its traversal limit. -/
def Accepts (library : PayloadLibrary Cap Value) (value : Value) : Prop :=
  library.readMessage (library.messageToFlatArray value) = .ok ()
    ∧ ∃ copy,
        library.copyRoot (library.capTable value) (library.messageToFlatArray value) = .ok copy

end PayloadLibrary

-----------------------------------------------------------------------------------------
-- Serializing a response and relaying it
-----------------------------------------------------------------------------------------

/-- A response as Lean is given it. -/
structure RawCallResult where
  response : List UInt8
  responseCaps : List UInt8

def appendUint32Le (out : List UInt8) (value : UInt32) : List UInt8 :=
  out ++ uint32Le value

/-- The loop over the entries of the response's capability table. -/
def appendResponseCaps (runtime : RuntimeTargets Cap) (responseCaps : List UInt8)
    : List (Option Cap) → Option (List UInt8 × RuntimeTargets Cap)
  | [] => some (responseCaps, runtime)
  | none :: rest => appendResponseCaps runtime (appendUint32Le responseCaps 0) rest
  | some hook :: rest =>
      (addTarget runtime hook).bind (fun (capId, runtime) =>
        appendResponseCaps runtime (appendUint32Le responseCaps capId) rest)

def serializeResponse (library : PayloadLibrary Cap Value) (runtime : RuntimeTargets Cap)
    (response : Value)
    : Option (RawCallResult × RuntimeTargets Cap) :=
  (appendResponseCaps runtime [] (library.capTable response)).map
    (fun (responseCaps, runtime) =>
      (⟨library.messageToFlatArray response, responseCaps⟩, runtime))

/-- The capability that an id stands for in a payload. -/
def payloadCap (runtime : RuntimeTargets Cap) (capId : UInt32) : Option Cap :=
  if capId = 0 then none else runtime.targets.lookup capId

/-- `withDecodedPayloadAndCapTable`, with the copy into the results as what is done with the
payload.
-/
def setContextResultsFromPayloadWithCapIds (library : PayloadLibrary Cap Value)
    (runtime : RuntimeTargets Cap) (responseBytes : List UInt8) (responseCapIds : List UInt32)
    (unknownCapErrorPrefix : String)
    : Except String Value := do
  library.readMessage responseBytes
  match firstUnknownCap runtime responseCapIds with
  | some capId => throw (unknownCapErrorPrefix ++ toString capId.toNat)
  | none => library.copyRoot (responseCapIds.map (payloadCap runtime)) responseBytes

def setContextResultsFromPayload (library : PayloadLibrary Cap Value)
    (runtime : RuntimeTargets Cap) (responseBytes responseCaps : List UInt8)
    (unknownCapErrorPrefix : String)
    : Except String Value := do
  let responseCapIds ← decodeCapTable responseCaps
  setContextResultsFromPayloadWithCapIds library runtime responseBytes responseCapIds
    unknownCapErrorPrefix

/-- The results of the caller's context, or what is thrown, and the runtime left behind. -/
def setContextResultsFromResponse (library : PayloadLibrary Cap Value)
    (runtime : RuntimeTargets Cap) (response : Value)
    : Option (Except String Value × RuntimeTargets Cap) :=
  (serializeResponse library runtime response).map (fun (raw, runtime) =>
    (setContextResultsFromPayload library runtime raw.response raw.responseCaps
      "unknown RPC response capability id from Lean advanced handler: ",
      runtime))

/-- Setting the results fails exactly where a returned payload fails. -/
theorem setContextResultsFromPayloadWithCapIds_checks (library : PayloadLibrary Cap Value)
    (runtime : RuntimeTargets Cap) (responseBytes : List UInt8) (responseCapIds : List UInt32)
    (unknownCapErrorPrefix : String)
    : (setContextResultsFromPayloadWithCapIds library runtime responseBytes responseCapIds
        unknownCapErrorPrefix).map (fun _ => ())
      = withDecodedPayloadAndCapTable
          (library.checks (responseCapIds.map (payloadCap runtime))) runtime responseBytes
          responseCapIds unknownCapErrorPrefix := by
  simp only [setContextResultsFromPayloadWithCapIds, withDecodedPayloadAndCapTable,
    PayloadLibrary.checks]
  cases library.readMessage responseBytes with
  | error message => rfl
  | ok _ =>
      cases firstUnknownCap runtime responseCapIds with
      | some capId => rfl
      | none => rfl

/-- The ids that the entries of a capability table are registered under. -/
def registerCaps (runtime : RuntimeTargets Cap)
    : List (Option Cap) → Option (List UInt32 × RuntimeTargets Cap)
  | [] => some ([], runtime)
  | none :: rest =>
      (registerCaps runtime rest).map (fun (capIds, runtime) => (0 :: capIds, runtime))
  | some hook :: rest =>
      (addTarget runtime hook).bind (fun (capId, runtime) =>
        (registerCaps runtime rest).map (fun (capIds, runtime) => (capId :: capIds, runtime)))

/-- The table's bytes are those of the registered ids, by induction on the entries. -/
theorem appendResponseCaps_eq (runtime : RuntimeTargets Cap) (responseCaps : List UInt8)
    (entries : List (Option Cap))
    : appendResponseCaps runtime responseCaps entries
      = (registerCaps runtime entries).map (fun (capIds, runtime) =>
          (responseCaps ++ capIds.flatMap uint32Le, runtime)) := by
  induction entries generalizing runtime responseCaps with
  | nil => simp [appendResponseCaps, registerCaps]
  | cons entry rest ih =>
      cases entry with
      | none =>
          rw [appendResponseCaps, ih, registerCaps, Option.map_map]
          simp [appendUint32Le, Function.comp_def]
      | some hook =>
          rw [appendResponseCaps, registerCaps, Option.map_bind]
          refine Option.bind_congr (fun added _ => ?_)
          obtain ⟨capId, runtime⟩ := added
          simp only [ih, Function.comp_apply, Option.map_map]
          simp [appendUint32Le, Function.comp_def]

/-- Null entries are written as 0; a capability is found under an id that was unused. -/
def RegisteredAs (before after : RuntimeTargets Cap) : Option Cap → UInt32 → Prop
  | none, capId => capId = 0
  | some hook, capId => capId ∉ before.targets ∧ after.targets.lookup capId = some hook

/-- What registering leaves: the old targets, and the new ones under ids of their own. -/
structure Registers (before : RuntimeTargets Cap) (entries : List (Option Cap))
    (capIds : List UInt32) (after : RuntimeTargets Cap)
    : Prop where
  kept
    : ∀ {target cap}, before.targets.lookup target = some cap →
        after.targets.lookup target = some cap
  registered : List.Forall₂ (RegisteredAs before after) entries capIds

/-- By induction on the entries: a later capability never takes the id of an earlier one. -/
theorem registers_of_registerCaps {before after : RuntimeTargets Cap}
    {entries : List (Option Cap)} {capIds : List UInt32}
    (registering : registerCaps before entries = some (capIds, after))
    : Registers before entries capIds after := by
  induction entries generalizing before capIds with
  | nil =>
      obtain ⟨rfl, rfl⟩ := Prod.mk.inj (Option.some.inj registering)
      exact ⟨id, .nil⟩
  | cons entry rest ih =>
      cases entry with
      | none =>
          obtain ⟨⟨ids, left⟩, later, same⟩ := Option.map_eq_some_iff.mp registering
          obtain ⟨rfl, rfl⟩ := Prod.mk.inj same
          have registers := ih later
          exact ⟨registers.kept, .cons rfl registers.registered⟩
      | some hook =>
          obtain ⟨⟨capId, middle⟩, added, registering⟩ := Option.bind_eq_some_iff.mp registering
          obtain ⟨⟨ids, left⟩, later, same⟩ := Option.map_eq_some_iff.mp registering
          obtain ⟨rfl, rfl⟩ := Prod.mk.inj same
          obtain ⟨fresh, rfl⟩ := addTarget_spec added
          have registers := ih later
          have kept {target : UInt32} {cap : Cap}
              (found : before.targets.lookup target = some cap)
              : left.targets.lookup target = some cap := by
            refine registers.kept ?_
            have other : target ≠ capId := by
              rintro rfl
              exact fresh (AList.lookup_isSome.mp (by simp [found]))
            rwa [AList.lookup_insert_ne other]
          refine ⟨kept, .cons ⟨fresh, registers.kept (AList.lookup_insert _)⟩ ?_⟩
          refine registers.registered.imp (fun entry id as => ?_)
          cases entry with
          | none => exact as
          | some hook =>
              exact ⟨fun member => as.1 ((AList.mem_insert _).mpr (.inr member)), as.2⟩

/-- Every entry of the table got an id. -/
theorem exists_registeredAs {before after : RuntimeTargets Cap} {entries : List (Option Cap)}
    {entry : Option Cap} {capIds : List UInt32}
    (registered : List.Forall₂ (RegisteredAs before after) entries capIds)
    (member : entry ∈ entries)
    : ∃ capId, RegisteredAs before after entry capId := by
  induction registered with
  | nil => exact nomatch member
  | cons as _ ih =>
      rcases List.mem_cons.mp member with rfl | later
      · exact ⟨_, as⟩
      · exact ih later

/-- Where 0 is no target, the ids stand for the entries that they were made from. -/
theorem map_payloadCap {before after : RuntimeTargets Cap} {entries : List (Option Cap)}
    {capIds : List UInt32} (registered : List.Forall₂ (RegisteredAs before after) entries capIds)
    (nonnull : 0 ∉ after.targets)
    : capIds.map (payloadCap after) = entries := by
  induction registered with
  | nil => rfl
  | @cons entry capId entries capIds as _ ih =>
      rw [List.map_cons, ih]
      congr 1
      cases entry with
      | none => exact if_pos as
      | some hook =>
          have nonzero : capId ≠ 0 := by
            intro zero
            exact nonnull (zero ▸ AList.lookup_isSome.mp (by simp [as.2]))
          rw [payloadCap, if_neg nonzero, as.2]

/-- The ids given are known, the null one among them. -/
theorem firstUnknownCap_registered {before after : RuntimeTargets Cap}
    {entries : List (Option Cap)} {capIds : List UInt32}
    (registered : List.Forall₂ (RegisteredAs before after) entries capIds)
    : firstUnknownCap after capIds = none := by
  induction registered with
  | nil => rfl
  | @cons entry capId entries capIds as _ ih =>
      have known : (capId != 0 && !decide (capId ∈ after.targets)) = false := by
        cases entry with
        | none => simp [show capId = 0 from as]
        | some hook =>
            have member : capId ∈ after.targets := AList.lookup_isSome.mp (by simp [as.2])
            simp [member]
      rw [firstUnknownCap, List.find?_cons, known]
      exact ih

-----------------------------------------------------------------------------------------
-- The relay
-----------------------------------------------------------------------------------------

/-- Relaying registers the capabilities and decodes what was flattened. -/
theorem setContextResultsFromResponse_eq (library : PayloadLibrary Cap Value)
    (runtime : RuntimeTargets Cap) (response : Value)
    : setContextResultsFromResponse library runtime response
      = (registerCaps runtime (library.capTable response)).map (fun (capIds, after) =>
          (setContextResultsFromPayloadWithCapIds library after
            (library.messageToFlatArray response) capIds
            "unknown RPC response capability id from Lean advanced handler: ",
            after)) := by
  rw [setContextResultsFromResponse, serializeResponse, appendResponseCaps_eq, Option.map_map,
    Option.map_map]
  refine Option.map_congr (fun registered _ => ?_)
  simp only [Function.comp_apply, List.nil_append, setContextResultsFromPayload,
    decodeCapTable_flatMap]
  rfl

/-- A payload with known ids is copied. -/
theorem setContextResultsFromPayloadWithCapIds_ok {library : PayloadLibrary Cap Value}
    {runtime : RuntimeTargets Cap} {responseBytes : List UInt8} {responseCapIds : List UInt32}
    {value : Value} (unknownCapErrorPrefix : String)
    (readable : library.readMessage responseBytes = .ok ())
    (known : firstUnknownCap runtime responseCapIds = none)
    (copied
      : library.copyRoot (responseCapIds.map (payloadCap runtime)) responseBytes = .ok value)
    : setContextResultsFromPayloadWithCapIds library runtime responseBytes responseCapIds
        unknownCapErrorPrefix
      = .ok value := by
  rw [← copied]
  simp only [setContextResultsFromPayloadWithCapIds, readable, known]
  rfl

/-- The results are the response where its ids stand for its capabilities. -/
theorem relayed_of_registered {library : PayloadLibrary Cap Value}
    {runtime after : RuntimeTargets Cap} {response : Value} {capIds : List UInt32}
    (accepts : library.Accepts response)
    (registering : registerCaps runtime (library.capTable response) = some (capIds, after))
    (sameCaps : capIds.map (payloadCap after) = library.capTable response)
    : setContextResultsFromResponse library runtime response = some (.ok response, after) := by
  obtain ⟨readable, copy, copied⟩ := accepts
  obtain rfl := library.copied copied
  have known := firstUnknownCap_registered (registers_of_registerCaps registering).registered
  have results
      := setContextResultsFromPayloadWithCapIds_ok
        "unknown RPC response capability id from Lean advanced handler: " readable known
        (sameCaps ▸ copied)
  rw [setContextResultsFromResponse_eq, registering]
  exact congrArg (fun answer => some (answer, after)) results

/-- As long as no capability is given the null id, the results are the response. -/
theorem relay_keeps_payload {library : PayloadLibrary Cap Value}
    {runtime after : RuntimeTargets Cap} {response : Value} {capIds : List UInt32}
    (accepts : library.Accepts response)
    (registering : registerCaps runtime (library.capTable response) = some (capIds, after))
    (nonnull : 0 ∉ after.targets)
    : setContextResultsFromResponse library runtime response = some (.ok response, after) := by
  have registered := (registers_of_registerCaps registering).registered
  exact relayed_of_registered accepts registering (map_payloadCap registered nonnull)

/-- A response that the serialization library reads back reaches the caller as it is, and leaves
the ids of the target table as they were.
-/
def RelaysCleanly (library : PayloadLibrary Cap Value) (runtime : RuntimeTargets Cap)
    (response : Value)
    : Prop :=
  library.Accepts response →
    ∃ after, setContextResultsFromResponse library runtime response = some (.ok response, after)
      ∧ ∀ target, target ∈ after.targets ↔ target ∈ runtime.targets

/-- Without capabilities nothing is registered, by induction on the null entries. -/
theorem registerCaps_none {runtime : RuntimeTargets Cap} {entries : List (Option Cap)}
    (empty : ∀ entry ∈ entries, entry = none)
    : registerCaps runtime entries = some (entries.map (fun _ => 0), runtime) := by
  induction entries with
  | nil => rfl
  | cons entry rest ih =>
      obtain ⟨rfl, others⟩ := List.forall_mem_cons.mp empty
      rw [registerCaps, ih others]
      rfl

/-- The relay is clean exactly when the response carries no capability. -/
theorem relays_cleanly_iff (library : PayloadLibrary Cap Value) (runtime : RuntimeTargets Cap)
    (response : Value)
    : RelaysCleanly library runtime response
      ↔ (library.Accepts response → ∀ entry ∈ library.capTable response, entry = none) := by
  constructor
  · intro clean accepts entry member
    obtain ⟨after, relayed, same⟩ := clean accepts
    rw [setContextResultsFromResponse_eq] at relayed
    obtain ⟨⟨capIds, left⟩, registering, results⟩ := Option.map_eq_some_iff.mp relayed
    obtain ⟨-, rfl⟩ := Prod.mk.inj results
    have registers := registers_of_registerCaps registering
    cases entry with
    | none => rfl
    | some hook =>
        obtain ⟨capId, fresh, found⟩ := exists_registeredAs registers.registered member
        exact absurd ((same capId).mp (AList.lookup_isSome.mp (by simp [found]))) fresh
  · intro without accepts
    have empty := without accepts
    refine ⟨runtime, relayed_of_registered accepts (registerCaps_none empty) ?_, fun _ => Iff.rfl⟩
    rw [List.map_map]
    exact (List.map_congr_left (fun entry member => (empty entry member).symm)).trans
      (List.map_id _)

/-- The message of a root pointer that is the first capability of its table, or null. -/
def rootCapMessage (present : Bool) : Message where
  segments := [if present then [3, 0, 0, 0, 0, 0, 0, 0] else wordBytes 0]

/-- What such a root pointer leads to. -/
def copyRootCap (caps : List (Option Nat)) (bytes : List UInt8) : Except String (Option Nat) := do
  let msg ← readMessageChecked {} bytes
  let index ← readCapabilityChecked (getRoot msg)
  if isNullPointer (getRoot msg) then return none
  match caps[index.toNat]? with
  | some cap => return cap
  | none => throw "invalid capability pointer"

/-- The library for values whose root pointer is a capability or null. -/
def rootCapLibrary : PayloadLibrary Nat (Option Nat) where
  capTable := fun root => root.toList.map some
  messageToFlatArray := fun root => writeMessage (rootCapMessage root.isSome)
  readMessage := fun bytes => (readMessageChecked {} bytes).map (fun _ => ())
  copyRoot := copyRootCap
  copied := by
    intro root copy same
    have read
        : readMessageChecked {} (writeMessage (rootCapMessage root.isSome))
          = .ok (rootCapMessage root.isSome) := by
      generalize root.isSome = present
      revert present
      decide
    have copies
        : copyRootCap (root.toList.map some) (writeMessage (rootCapMessage root.isSome))
          = .ok root := by
      rw [copyRootCap, read]
      cases root with
      | none => rfl
      | some cap =>
          have index : readCapabilityChecked (getRoot (rootCapMessage true)) = .ok 0 := by decide
          have present : isNullPointer (getRoot (rootCapMessage true)) = false := by decide
          simp only [Option.isSome_some, bind, Except.bind, index, present]
          rfl
    exact (Except.ok.inj (copies.symm.trans same)).symm

/-- Relaying a response with one capability leaves its new id in the table. -/
theorem relayed_capability_stays_registered
    : ¬ ∀ (library : PayloadLibrary Nat (Option Nat)) runtime response,
        RelaysCleanly library runtime response := by
  intro always
  have accepts : rootCapLibrary.Accepts (some 7) := ⟨rfl, some 7, rfl⟩
  obtain ⟨after, relayed, same⟩ := always rootCapLibrary {} (some 7) accepts
  have leaves
      : setContextResultsFromResponse rootCapLibrary {} (some 7)
        = some (.ok (some 7),
            { targets := (∅ : Table UInt32 Nat).insert 1 7, nextTargetId := 2, allocated := 1 }) :=
    rfl
  obtain ⟨-, rfl⟩ := Prod.mk.inj (Option.some.inj (leaves.symm.trans relayed))
  exact absurd ((same 1).mp (by decide)) (by decide)

end Capnp.Rpc
