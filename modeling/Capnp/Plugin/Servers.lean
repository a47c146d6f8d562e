import Capnp.Library.Table
import Capnp.Plugin.Names
import Capnp.Rpc.HandlerReply
import Mathlib.Data.List.Flatten
import Mathlib.Logic.Relation

/-! The servers that the code generator emits for an interface: a table of routes and an
if-chain, both over the generated names of the interface's methods. A method named like a
keyword or like a definition of the interface makes a file that does not compile; nothing is
routed there.
-/

-----------------------------------------------------------------------------------------
-- Backends and tables of routes
-----------------------------------------------------------------------------------------

namespace Capnp.Rpc

variable {Client Payload Result : Type}

/-- What calls are handed to. -/
structure Backend (Client Payload Result : Type) where
  call : Client → Method → Payload → Result

/-- A method and its handler. -/
structure Route (Client Payload Result : Type) where
  method : Method
  handler : Client → Payload → Result

/-- The table of routes. -/
structure Dispatch (Client Payload Result : Type) where
  routes : List (Route Client Payload Result) := []

namespace Dispatch

def register (d : Dispatch Client Payload Result) (method : Method)
    (handler : Client → Payload → Result)
    : Dispatch Client Payload Result :=
  { routes := d.routes ++ [{ method, handler }] }

/-- The handler of the first route for the method. -/
def findHandler? (d : Dispatch Client Payload Result) (method : Method)
    : Option (Client → Payload → Result) :=
  (d.routes.find? (fun route => route.method = method)).map (fun route => route.handler)

def toBackend (d : Dispatch Client Payload Result)
    (onMissing : Client → Method → Payload → Result)
    : Backend Client Payload Result where
  call := fun target method payload =>
    match d.findHandler? method with
    | some handler => handler target payload
    | none => onMissing target method payload

end Dispatch

end Capnp.Rpc

namespace Capnp.Plugin

open Rpc

-----------------------------------------------------------------------------------------
-- The schema
-----------------------------------------------------------------------------------------

/-- A method as the schema declares it. -/
structure SchemaMethod where
  name : List UInt8
  ordinal : UInt16
deriving DecidableEq

/-- What an interface declares itself, and the ids of the interfaces it extends. -/
structure InterfaceSchema where
  methods : List SchemaMethod := []
  superclasses : List UInt64 := []

/-- The loaded interfaces by their ids. -/
abbrev InterfaceLoader := Table UInt64 InterfaceSchema

def InterfaceLoader.get (loader : InterfaceLoader) (id : UInt64) : InterfaceSchema :=
  (loader.lookup id).getD {}

/-- The interface of the method declares one with its ordinal. -/
def DeclaredAt (loader : InterfaceLoader) (id : UInt64) (method : Method) : Prop :=
  method.interfaceId = id
    ∧ ∃ declared ∈ (loader.get id).methods, declared.ordinal = method.methodId

/-- The method is declared by the interface or by one of its transitive superclasses. -/
def Declared (loader : InterfaceLoader) (id : UInt64) (method : Method) : Prop :=
  ∃ ancestor,
    Relation.ReflTransGen (fun child parent => parent ∈ (loader.get child).superclasses)
      id ancestor
    ∧ DeclaredAt loader ancestor method

-----------------------------------------------------------------------------------------
-- The generated code
-----------------------------------------------------------------------------------------

/-- The names of a method that servers use. -/
structure RpcMethodOut where
  fieldName : String
  methodIdName : String
  methodName : String

/-- What the names of a method's other handler types are made from. -/
def handlerNames (raw : String) : List String :=
  [raw ++ "Handler", raw ++ "TypedHandler", raw ++ "AdvancedTypedHandler",
    raw ++ "StreamingTypedHandler"]

/-- What the names for clients and for typed handlers are made from. -/
def clientNames (raw cap : String) : List String :=
  ["call" ++ cap, "call" ++ cap ++ "M", "call" ++ cap ++ "WithPayloadRef",
    "call" ++ cap ++ "WithPayloadRefM", "start" ++ cap, "start" ++ cap ++ "M",
    "start" ++ cap ++ "WithPayloadRef", "start" ++ cap ++ "WithPayloadRefM",
    "await" ++ cap, "await" ++ cap ++ "PayloadRef", cap ++ "Response", cap ++ "Promise",
    "start" ++ cap ++ "Promise", "start" ++ cap ++ "PromiseM", "await" ++ cap ++ "Typed",
    "get" ++ cap ++ "PipelinedCap", "call" ++ cap ++ "PipelinedM",
    "call" ++ cap ++ "PipelinedTypedM", "call" ++ cap ++ "Typed", "call" ++ cap ++ "TypedM",
    raw ++ "RequestToPayload", raw ++ "RequestOfPayload", raw ++ "ResponseToPayload",
    raw ++ "ResponseOfPayload"]

/-- All names of a method are drawn, in this order. -/
def drawNames (raw : String) (handlers clients usedNames : List String)
    : RpcMethodOut × List String :=
  let (fieldName, usedNames) := uniqueName raw usedNames
  let (_, usedNames) := uniqueNames handlers usedNames
  let (methodIdName, usedNames) := uniqueName (raw ++ "MethodId") usedNames
  let (methodName, usedNames) := uniqueName (raw ++ "Method") usedNames
  let (_, usedNames) := uniqueNames clients usedNames
  ({ fieldName, methodIdName, methodName }, usedNames)

def rpcMethodOut (method : SchemaMethod) (usedNames : List String)
    : RpcMethodOut × List String :=
  let raw := sanitizeIdentifier method.name
  let cap := capitalizeIdentifier raw
  drawNames raw (handlerNames raw) (clientNames raw cap) usedNames

/-- Each method of an interface with its names. -/
def rpcMethods : List SchemaMethod → List String → List (SchemaMethod × RpcMethodOut)
  | [], _ => []
  | method :: rest, usedNames =>
      let (methodOut, usedNames) := rpcMethodOut method usedNames
      (method, methodOut) :: rpcMethods rest usedNames

/-- A definition in the namespace of the interface; that of a method refers to `interfaceId`
and to the name of its id.
-/
inductive Definition where
  | interfaceId (value : UInt64)
  | methodId (value : UInt16)
  | method (methodIdName : String)

/-- The emitted definitions, the fields of the server structure, the statements of its table of
routes, and the branches of its backend. Statements and branches name a method and a field.
-/
structure ServerCode where
  definitions : List (String × Definition)
  fields : List String
  registers : List (String × String)
  branches : List (String × String)

def genInterface (loader : InterfaceLoader) (id : UInt64) : ServerCode :=
  let rpcMethods := rpcMethods (loader.get id).methods ["interfaceId"]
  { definitions :=
      ("interfaceId", .interfaceId id)
        :: rpcMethods.flatMap (fun (method, methodOut) =>
            [(methodOut.methodIdName, .methodId method.ordinal),
              (methodOut.methodName, .method methodOut.methodIdName)])
    fields := rpcMethods.map (fun (_, methodOut) => methodOut.fieldName)
    registers :=
      rpcMethods.map (fun (_, methodOut) => (methodOut.methodName, methodOut.fieldName))
    branches :=
      rpcMethods.map (fun (_, methodOut) => (methodOut.methodName, methodOut.fieldName)) }

-----------------------------------------------------------------------------------------
-- What the generated code does
-----------------------------------------------------------------------------------------

namespace ServerCode

variable {Client Payload Result : Type} (code : ServerCode)

/-- The value of a method's definition; a name without one does not compile. -/
def method? (name : String) : Option Method :=
  match code.definitions.lookup name with
  | some (.method methodIdName) =>
      match code.definitions.lookup "interfaceId", code.definitions.lookup methodIdName with
      | some (.interfaceId interfaceId), some (.methodId methodId) =>
          some { interfaceId, methodId }
      | _, _ => none
  | _ => none

/-- The emitted `dispatch` of a server, which is given by the handlers in its fields. -/
def dispatch (server : String → Client → Payload → Result)
    : Option (Dispatch Client Payload Result) :=
  code.registers.foldlM
    (fun d (methodName, fieldName) =>
      (code.method? methodName).map (fun method => d.register method (server fieldName)))
    {}

/-- The emitted `if method == .. then .. else if ..` from a branch on. -/
def ifChain (server : String → Client → Payload → Result)
    (onMissing : Client → Method → Payload → Result) (target : Client) (method : Method)
    (payload : Payload)
    : List (String × String) → Option Result
  | [] => some (onMissing target method payload)
  | (methodName, fieldName) :: rest =>
      match code.method? methodName, ifChain server onMissing target method payload rest with
      | some branch, some otherwise =>
          some (if method = branch then server fieldName target payload else otherwise)
      | _, _ => none

def backendCall (server : String → Client → Payload → Result)
    (onMissing : Client → Method → Payload → Result) (target : Client) (method : Method)
    (payload : Payload)
    : Option Result :=
  code.ifChain server onMissing target method payload code.branches

def dispatchCall (server : String → Client → Payload → Result)
    (onMissing : Client → Method → Payload → Result) (target : Client) (method : Method)
    (payload : Payload)
    : Option Result :=
  (code.dispatch server).map (fun d => (d.toBackend onMissing).call target method payload)

/-- Both forms call the handler in the field, whatever the server. -/
def Invokes (method : Method) (field : String) : Prop :=
  ∀ (Client Payload Result : Type) (server : String → Client → Payload → Result)
    (onMissing : Client → Method → Payload → Result) (target : Client) (payload : Payload),
    code.backendCall server onMissing target method payload
      = some (server field target payload)
    ∧ code.dispatchCall server onMissing target method payload
      = some (server field target payload)

/-- Both forms call `onMissing`, whatever the server. -/
def Misses (method : Method) : Prop :=
  ∀ (Client Payload Result : Type) (server : String → Client → Payload → Result)
    (onMissing : Client → Method → Payload → Result) (target : Client) (payload : Payload),
    code.backendCall server onMissing target method payload
      = some (onMissing target method payload)
    ∧ code.dispatchCall server onMissing target method payload
      = some (onMissing target method payload)

/-- Both forms do the same with a call, whatever the server. -/
def Agrees (method : Method) : Prop :=
  ∀ (Client Payload Result : Type) (server : String → Client → Payload → Result)
    (onMissing : Client → Method → Payload → Result) (target : Client) (payload : Payload),
    code.backendCall server onMissing target method payload
      = code.dispatchCall server onMissing target method payload

end ServerCode

/-- The server of an interface has a field for each method, hands the calls that are in its
method set to the handler of a method with the ordinal, and all others to `onMissing`.
-/
structure RoutesCalls (loader : InterfaceLoader) (id : UInt64) (inMethodSet : Method → Prop)
    : Prop where
  fields : (genInterface loader id).fields.Nodup
  handled
    : ∀ method, inMethodSet method →
        ∃ declared methodOut,
          (declared, methodOut) ∈ rpcMethods (loader.get id).methods ["interfaceId"]
          ∧ declared.ordinal = method.methodId
          ∧ (genInterface loader id).Invokes method methodOut.fieldName
  missing : ∀ method, ¬ inMethodSet method → (genInterface loader id).Misses method
  agree : ∀ method, (genInterface loader id).Agrees method

-----------------------------------------------------------------------------------------
-- The generated names are all different
-----------------------------------------------------------------------------------------

def RpcMethodOut.names (methodOut : RpcMethodOut) : List String :=
  [methodOut.fieldName, methodOut.methodIdName, methodOut.methodName]

/-- The three names among all that are drawn for a method. -/
theorem Drawn.names_of_method {field methodId method : String} {handlers others : List String}
    {used first second third fourth last : List String} (ofField : Drawn [field] used first)
    (ofHandlers : Drawn handlers first second) (ofMethodId : Drawn [methodId] second third)
    (ofMethod : Drawn [method] third fourth) (ofOthers : Drawn others fourth last)
    : ∃ drawn, Drawn drawn used last ∧ [field, methodId, method].Sublist drawn := by
  refine
    ⟨_, (((ofField.append ofHandlers).append ofMethodId).append ofMethod).append ofOthers, ?_⟩
  have fieldFirst : [field].Sublist ([field] ++ handlers) := List.sublist_append_left _ _
  exact ((fieldFirst.append_right [methodId]).append_right [method]).trans
    (List.sublist_append_left _ _)

/-- The names of a method are drawn one after the other. -/
theorem drawNames_drawn (raw : String) (handlers clients usedNames : List String)
    : ∃ drawn,
        Drawn drawn usedNames (drawNames raw handlers clients usedNames).2
        ∧ (drawNames raw handlers clients usedNames).1.names.Sublist drawn :=
  (uniqueName_drawn _ _).names_of_method (uniqueNames_drawn _ _) (uniqueName_drawn _ _)
    (uniqueName_drawn _ _) (uniqueNames_drawn _ _)

/-- The same with the bases of the source. -/
theorem rpcMethodOut_drawn (method : SchemaMethod) (usedNames : List String)
    : ∃ drawn,
        Drawn drawn usedNames (rpcMethodOut method usedNames).2
        ∧ (rpcMethodOut method usedNames).1.names.Sublist drawn := by
  unfold rpcMethodOut
  exact drawNames_drawn (sanitizeIdentifier method.name) _ _ usedNames

/-- The methods of an interface one by one. -/
theorem rpcMethods_cons (method : SchemaMethod) (rest : List SchemaMethod)
    (usedNames : List String)
    : rpcMethods (method :: rest) usedNames
      = (method, (rpcMethodOut method usedNames).1)
        :: rpcMethods rest (rpcMethodOut method usedNames).2 := by
  rw [rpcMethods]

/-- By induction on the methods: the names drawn for one are in use for the next. -/
theorem rpcMethods_drawn (methods : List SchemaMethod) (usedNames : List String)
    : ∃ drawn after,
        Drawn drawn usedNames after
        ∧ ((rpcMethods methods usedNames).flatMap
            (fun (_, methodOut) => methodOut.names)).Sublist drawn := by
  induction methods generalizing usedNames with
  | nil => exact ⟨[], usedNames, ⟨rfl, .nil, by simp⟩, List.nil_sublist _⟩
  | cons method rest ih =>
      obtain ⟨first, here, names⟩ := rpcMethodOut_drawn method usedNames
      obtain ⟨later, after, there, others⟩ := ih (rpcMethodOut method usedNames).2
      rw [rpcMethods_cons, List.flatMap_cons]
      exact ⟨first ++ later, after, here.append there, names.append others⟩

/-- An entry is found if no other one has its name. -/
theorem lookup_of_mem {α : Type} {entries : List (String × α)} {name : String} {value : α}
    (distinct : (entries.map Prod.fst).Nodup) (member : (name, value) ∈ entries)
    : entries.lookup name = some value := by
  obtain ⟨before, after, rfl⟩ := List.append_of_mem member
  rw [List.lookup_eq_some_iff]
  refine ⟨before, after, rfl, fun entry earlier => ?_⟩
  rw [List.map_append, List.map_cons, List.nodup_append] at distinct
  have apart := distinct.2.2 entry.1 (List.mem_map_of_mem earlier) name List.mem_cons_self
  simpa using Ne.symm apart

section Generated

variable (loader : InterfaceLoader) (id : UInt64)

/-- No two fields of a server have one name. -/
theorem fields_nodup : (genInterface loader id).fields.Nodup := by
  obtain ⟨drawn, after, names, sublist⟩ :=
    rpcMethods_drawn (loader.get id).methods ["interfaceId"]
  refine (List.Sublist.trans ?_ sublist).nodup names.distinct
  rw [genInterface, ← List.flatMap_pure_eq_map]
  exact List.Sublist.flatMap_right _ (fun _ _ => List.sublist_append_left [_] _)

/-- No two definitions of an interface have one name. -/
theorem definitions_nodup : ((genInterface loader id).definitions.map Prod.fst).Nodup := by
  obtain ⟨drawn, after, names, sublist⟩ :=
    rpcMethods_drawn (loader.get id).methods ["interfaceId"]
  have defined
      : ((rpcMethods (loader.get id).methods ["interfaceId"]).flatMap
          (fun (_, methodOut) => [methodOut.methodIdName, methodOut.methodName])).Sublist drawn :=
    (List.Sublist.flatMap_right _ (fun _ _ => List.sublist_append_right [_] _)).trans sublist
  have unfolded
      : (genInterface loader id).definitions.map Prod.fst
        = "interfaceId"
          :: (rpcMethods (loader.get id).methods ["interfaceId"]).flatMap
              (fun (_, methodOut) => [methodOut.methodIdName, methodOut.methodName]) := by
    simp [genInterface, List.map_flatMap]
  rw [unfolded, List.nodup_cons]
  refine ⟨fun reserved => ?_, defined.nodup names.distinct⟩
  exact names.unused "interfaceId" (defined.subset reserved) List.mem_cons_self

variable {loader id}

/-- The name of a method stands for its id in the interface. -/
theorem method?_methodName {declared : SchemaMethod} {methodOut : RpcMethodOut}
    (member : (declared, methodOut) ∈ rpcMethods (loader.get id).methods ["interfaceId"])
    : (genInterface loader id).method? methodOut.methodName
      = some { interfaceId := id, methodId := declared.ordinal } := by
  have found {name : String} {definition : Definition}
      (defined : (name, definition) ∈ (genInterface loader id).definitions)
      : (genInterface loader id).definitions.lookup name = some definition :=
    lookup_of_mem (definitions_nodup loader id) defined
  have emitted {entry : String × Definition}
      (own
        : entry
          ∈ [(methodOut.methodIdName, .methodId declared.ordinal),
              (methodOut.methodName, .method methodOut.methodIdName)])
      : entry ∈ (genInterface loader id).definitions :=
    List.mem_cons_of_mem _ (List.mem_flatMap.mpr ⟨(declared, methodOut), member, own⟩)
  have reserved : (genInterface loader id).definitions.lookup "interfaceId"
      = some (.interfaceId id) := found List.mem_cons_self
  have methodId : (genInterface loader id).definitions.lookup methodOut.methodIdName
      = some (.methodId declared.ordinal) := found (emitted (by simp))
  have method : (genInterface loader id).definitions.lookup methodOut.methodName
      = some (.method methodOut.methodIdName) := found (emitted (by simp))
  simp only [ServerCode.method?, method, reserved, methodId]

end Generated

-----------------------------------------------------------------------------------------
-- Both forms take the first method with the id
-----------------------------------------------------------------------------------------

section Forms

variable {Client Payload Result : Type} {code : ServerCode} {id : UInt64}
  {methods : List (SchemaMethod × RpcMethodOut)}

def isMethod (id : UInt64) (method : Method) (entry : SchemaMethod × RpcMethodOut) : Bool :=
  decide (method = ⟨id, entry.1.ordinal⟩)

/-- The field of the first method with the id. -/
def fieldOf? (id : UInt64) (methods : List (SchemaMethod × RpcMethodOut)) (method : Method)
    : Option String :=
  (methods.find? (isMethod id method)).map (fun (_, methodOut) => methodOut.fieldName)

/-- The names of the methods stand for their ids. -/
def Resolves (code : ServerCode) (id : UInt64) (methods : List (SchemaMethod × RpcMethodOut))
    : Prop :=
  ∀ declared methodOut,
    (declared, methodOut) ∈ methods →
    code.method? methodOut.methodName = some ⟨id, declared.ordinal⟩

/-- The if-chain calls the field of the method, by induction on the methods. -/
theorem ifChain_eq (resolves : Resolves code id methods)
    (server : String → Client → Payload → Result)
    (onMissing : Client → Method → Payload → Result) (target : Client) (method : Method)
    (payload : Payload)
    : code.ifChain server onMissing target method payload
        (methods.map (fun (_, methodOut) => (methodOut.methodName, methodOut.fieldName)))
      = some
          (match fieldOf? id methods method with
            | some field => server field target payload
            | none => onMissing target method payload) := by
  induction methods with
  | nil => rfl
  | cons first rest ih =>
      obtain ⟨declared, methodOut⟩ := first
      have later := ih (fun other otherOut member =>
        resolves other otherOut (List.mem_cons_of_mem _ member))
      have here := resolves declared methodOut List.mem_cons_self
      simp only [List.map_cons, ServerCode.ifChain, here, later, fieldOf?, List.find?_cons,
        Option.some.injEq]
      by_cases same : method = ⟨id, declared.ordinal⟩
      · simp [isMethod, same]
      · simp [isMethod, same]

/-- The emitted table has a route for each method, in order. -/
theorem foldlM_register (resolves : Resolves code id methods)
    (server : String → Client → Payload → Result) (d : Dispatch Client Payload Result)
    : (methods.map (fun (_, methodOut) => (methodOut.methodName, methodOut.fieldName))).foldlM
        (fun d (methodName, fieldName) =>
          (code.method? methodName).map (fun method => d.register method (server fieldName)))
        d
      = some
          { routes :=
              d.routes
                ++ methods.map
                    (fun (declared, methodOut) =>
                      ⟨⟨id, declared.ordinal⟩, server methodOut.fieldName⟩) } := by
  induction methods generalizing d with
  | nil => simp
  | cons first rest ih =>
      obtain ⟨declared, methodOut⟩ := first
      have here := resolves declared methodOut List.mem_cons_self
      have later := ih (fun other otherOut member =>
        resolves other otherOut (List.mem_cons_of_mem _ member))
      simp only [List.map_cons, List.foldlM_cons, here, Option.map_some, Option.bind_eq_bind,
        Option.bind_some]
      refine (later _).trans ?_
      simp only [Dispatch.register, List.append_assoc, List.singleton_append]

/-- The table of routes calls the same field. -/
theorem dispatchCall_eq (resolves : Resolves code id methods)
    (registers
      : code.registers
        = methods.map (fun (_, methodOut) => (methodOut.methodName, methodOut.fieldName)))
    (server : String → Client → Payload → Result)
    (onMissing : Client → Method → Payload → Result) (target : Client) (method : Method)
    (payload : Payload)
    : code.dispatchCall server onMissing target method payload
      = some
          (match fieldOf? id methods method with
            | some field => server field target payload
            | none => onMissing target method payload) := by
  rw [ServerCode.dispatchCall, ServerCode.dispatch, registers, foldlM_register resolves]
  have matching
      : (fun (declared, _) => decide ((⟨id, declared.ordinal⟩ : Method) = method))
        = isMethod id method := by
    funext entry
    simp only [isMethod, eq_comm]
  simp only [Option.map_some, Option.some.injEq, Dispatch.toBackend, Dispatch.findHandler?,
    List.nil_append, List.find?_map, fieldOf?, Option.map_map, Function.comp_def, matching]
  cases methods.find? (isMethod id method) <;> rfl

end Forms

section Generated

variable {loader : InterfaceLoader} {id : UInt64} {method : Method}

/-- Every method is generated once, in order. -/
theorem rpcMethods_schema (methods : List SchemaMethod) (usedNames : List String)
    : (rpcMethods methods usedNames).map Prod.fst = methods := by
  induction methods generalizing usedNames with
  | nil => rfl
  | cons method rest ih => rw [rpcMethods_cons, List.map_cons, ih]

/-- A declared method has a field. -/
theorem fieldOf?_of_declaredAt (declaredAt : DeclaredAt loader id method)
    : ∃ declared methodOut,
        (declared, methodOut) ∈ rpcMethods (loader.get id).methods ["interfaceId"]
        ∧ declared.ordinal = method.methodId
        ∧ fieldOf? id (rpcMethods (loader.get id).methods ["interfaceId"]) method
          = some methodOut.fieldName := by
  obtain ⟨interfaceId, declared, member, ordinal⟩ := declaredAt
  rw [← rpcMethods_schema (loader.get id).methods ["interfaceId"]] at member
  obtain ⟨⟨same, methodOut⟩, emitted, rfl⟩ := List.mem_map.mp member
  have present
      : ((rpcMethods (loader.get id).methods ["interfaceId"]).find?
          (isMethod id method)).isSome := by
    refine List.find?_isSome.mpr ⟨_, emitted, decide_eq_true ?_⟩
    rw [← interfaceId, ordinal]
  obtain ⟨⟨first, firstOut⟩, found⟩ := Option.isSome_iff_exists.mp present
  have matching : isMethod id method (first, firstOut) = true := List.find?_some found
  have same : method = ⟨id, first.ordinal⟩ := of_decide_eq_true matching
  exact
    ⟨first, firstOut, List.mem_of_find?_eq_some found, by rw [same],
      by rw [fieldOf?, found, Option.map_some]⟩

/-- Any other method has none. -/
theorem fieldOf?_of_not_declaredAt (undeclared : ¬ DeclaredAt loader id method)
    : fieldOf? id (rpcMethods (loader.get id).methods ["interfaceId"]) method = none := by
  rw [fieldOf?, Option.map_eq_none_iff, List.find?_eq_none]
  rintro ⟨declared, methodOut⟩ emitted matches'
  have same : method = ⟨id, declared.ordinal⟩ := of_decide_eq_true matches'
  have member := List.mem_map_of_mem (f := Prod.fst) emitted
  rw [rpcMethods_schema] at member
  exact undeclared ⟨by rw [same], declared, member, by rw [same]⟩

/-- Both forms call what the first method with the id has for a field. -/
theorem calls_eq {Client Payload Result : Type} (loader : InterfaceLoader) (id : UInt64)
    (method : Method) (server : String → Client → Payload → Result)
    (onMissing : Client → Method → Payload → Result) (target : Client) (payload : Payload)
    : let outcome :=
        some
          (match fieldOf? id (rpcMethods (loader.get id).methods ["interfaceId"]) method with
            | some field => server field target payload
            | none => onMissing target method payload)
      (genInterface loader id).backendCall server onMissing target method payload = outcome
      ∧ (genInterface loader id).dispatchCall server onMissing target method payload
        = outcome := by
  have resolves
      : Resolves (genInterface loader id) id
          (rpcMethods (loader.get id).methods ["interfaceId"]) :=
    fun declared methodOut => method?_methodName
  exact
    ⟨ifChain_eq resolves server onMissing target method payload,
      dispatchCall_eq resolves rfl server onMissing target method payload⟩

/-- A method that the interface does not declare itself goes to `onMissing`. -/
theorem misses_of_not_declaredAt (undeclared : ¬ DeclaredAt loader id method)
    : (genInterface loader id).Misses method := by
  intro Client Payload Result server onMissing target payload
  have calls := calls_eq loader id method server onMissing target payload
  rwa [fieldOf?_of_not_declaredAt undeclared] at calls

/-- A generated server routes the calls to the methods that its interface declares itself to
their handlers and all others to `onMissing`, in both forms alike.
-/
theorem server_routes_declared_methods (loader : InterfaceLoader) (id : UInt64)
    : RoutesCalls loader id (DeclaredAt loader id) where
  fields := fields_nodup loader id
  handled := by
    intro method declaredAt
    obtain ⟨declared, methodOut, emitted, ordinal, field⟩ := fieldOf?_of_declaredAt declaredAt
    refine ⟨declared, methodOut, emitted, ordinal, ?_⟩
    intro Client Payload Result server onMissing target payload
    have calls := calls_eq loader id method server onMissing target payload
    rwa [field] at calls
  missing := fun method undeclared => misses_of_not_declaredAt undeclared
  agree := by
    intro method Client Payload Result server onMissing target payload
    obtain ⟨backend, dispatch⟩ := calls_eq loader id method server onMissing target payload
    exact backend.trans dispatch.symm

/-- `pong` of interface 2 extends interface 1 with `ping`: a call to `ping` at a server of
interface 2 goes to `onMissing`.
-/
theorem not_server_routes_inherited_methods
    : ¬ ∀ loader id, RoutesCalls loader id (Declared loader id) := by
  intro routes
  let ping : InterfaceSchema := { methods := [⟨[112, 105, 110, 103], 0⟩] }
  let pong : InterfaceSchema := { methods := [⟨[112, 111, 110, 103], 0⟩], superclasses := [1] }
  let loader : InterfaceLoader := AList.insert 2 pong (AList.insert 1 ping ∅)
  have inherited : Declared loader 2 ⟨1, 0⟩ :=
    ⟨1, .single (by decide), rfl, ⟨[112, 105, 110, 103], 0⟩, by decide, rfl⟩
  have undeclared : ¬ DeclaredAt loader 2 ⟨1, 0⟩ := fun declared => absurd declared.1 (by decide)
  obtain ⟨declared, methodOut, -, -, invokes⟩ := (routes loader 2).handled _ inherited
  have handled := (invokes Unit Unit Bool (fun _ _ _ => true) (fun _ _ _ => false) () ()).1
  have missed :=
    (misses_of_not_declaredAt undeclared Unit Unit Bool (fun _ _ _ => true)
      (fun _ _ _ => false) () ()).1
  rw [handled] at missed
  cases missed

end Generated

end Capnp.Plugin
