import Capnp.Rpc.Targets

/-! Promise capabilities: resolving them at once, holding resolutions back, and flushing.
A held resolve stores two ids; the flush looks both up again. Fulfiller objects are
numbered in the order of their creation, and what each one got is recorded.
-/

namespace Capnp.Rpc

/-- The types of exceptions. -/
inductive ExceptionType where
  | failed
  | overloaded
  | disconnected
  | unimplemented
deriving DecidableEq

def decodeRemoteExceptionType (typeTag : UInt8) : ExceptionType :=
  match typeTag.toNat with
  | 0 => .failed
  | 1 => .overloaded
  | 2 => .disconnected
  | 3 => .unimplemented
  | _ => .failed

/-- What a fulfiller object got. -/
inductive Resolution (Cap : Type*) where
  | fulfilled (cap : Cap)
  | rejected (type : ExceptionType) (message : String) (detail : Option (List UInt8))
deriving DecidableEq

/-- A promised capability that is not resolved yet. -/
structure PendingPromiseCapability where
  fulfiller : Nat
  promiseTarget : UInt32

/-- A resolve that is held back. -/
structure HeldPromiseCapabilityResolve where
  fulfillerId : UInt32
  target : UInt32

/-- The runtime's promise capabilities next to its targets. `resolutions` is what the
fulfiller objects were given, oldest first.
-/
structure PromiseRuntime (Cap : Type*) where
  targets : RuntimeTargets Cap := {}
  promiseCapabilityFulfillers : Table UInt32 PendingPromiseCapability := ∅
  nextPromiseCapabilityFulfillerId : UInt32 := 1
  holdPromiseCapabilityResolves : Bool := false
  heldPromiseCapabilityResolves : List HeldPromiseCapabilityResolve := []
  heldPromiseCapabilityFulfillerIds : Finset UInt32 := ∅
  createdFulfillers : Nat := 0
  resolutions : List (Nat × Resolution Cap) := []

variable {Cap : Type*}

def addPromiseCapabilityFulfiller (runtime : PromiseRuntime Cap) (promiseTarget : UInt32)
    : Option (UInt32 × PromiseRuntime Cap) :=
  (allocateId runtime.promiseCapabilityFulfillers
      (runtime.promiseCapabilityFulfillers.keys.length + 1)
      runtime.nextPromiseCapabilityFulfillerId).map
    (fun (fulfillerId, next) =>
      (fulfillerId,
        { runtime with
          promiseCapabilityFulfillers :=
            runtime.promiseCapabilityFulfillers.insert fulfillerId
              ⟨runtime.createdFulfillers, promiseTarget⟩
          nextPromiseCapabilityFulfillerId := next
          createdFulfillers := runtime.createdFulfillers + 1 }))

/-- `promise` is the local promise client made together with the fulfiller. -/
def newPromiseCapability (runtime : PromiseRuntime Cap) (promise : Cap)
    : Option ((UInt32 × UInt32) × PromiseRuntime Cap) :=
  (addTarget runtime.targets promise).bind (fun (targetId, targets) =>
    (addPromiseCapabilityFulfiller { runtime with targets := targets } targetId).map
      (fun (fulfillerId, runtime) => ((targetId, fulfillerId), runtime)))

def unknownFulfiller (fulfillerId : UInt32) : String :=
  s!"unknown RPC promise capability fulfiller id: {fulfillerId.toNat}"

/-- The checks that fulfilling makes, at once or for a held resolve, in their order. -/
def checkFulfill (runtime : PromiseRuntime Cap) (fulfillerId target : UInt32)
    : Except String (PendingPromiseCapability × Cap) :=
  match runtime.promiseCapabilityFulfillers.lookup fulfillerId with
  | none => .error (unknownFulfiller fulfillerId)
  | some promise =>
      if target = 0 then .error "cannot fulfill promise capability with null target"
      else if target = promise.promiseTarget then
        .error "cannot fulfill promise capability with itself"
      else
        match runtime.targets.targets.lookup target with
        | none => .error (unknownTarget target)
        | some cap => .ok (promise, cap)

/-- A fulfiller object gets its resolution and leaves the table. -/
def resolveFulfiller (runtime : PromiseRuntime Cap) (fulfillerId : UInt32)
    (promise : PendingPromiseCapability) (resolution : Resolution Cap)
    : PromiseRuntime Cap :=
  { runtime with
    promiseCapabilityFulfillers := runtime.promiseCapabilityFulfillers.erase fulfillerId
    resolutions := runtime.resolutions ++ [(promise.fulfiller, resolution)] }

def promiseCapabilityFulfillNow (runtime : PromiseRuntime Cap) (fulfillerId target : UInt32)
    : Except String Unit × PromiseRuntime Cap :=
  match checkFulfill runtime fulfillerId target with
  | .error message => (.error message, runtime)
  | .ok (promise, cap) => (.ok (), resolveFulfiller runtime fulfillerId promise (.fulfilled cap))

def promiseCapabilityFulfill (runtime : PromiseRuntime Cap) (fulfillerId target : UInt32)
    : Except String Unit × PromiseRuntime Cap :=
  if fulfillerId ∈ runtime.heldPromiseCapabilityFulfillerIds then
    (.error "promise capability fulfiller already has a held resolve", runtime)
  else if !runtime.holdPromiseCapabilityResolves then
    promiseCapabilityFulfillNow runtime fulfillerId target
  else
    match checkFulfill runtime fulfillerId target with
    | .error message => (.error message, runtime)
    | .ok _ =>
        (.ok (),
          { runtime with
            heldPromiseCapabilityResolves :=
              runtime.heldPromiseCapabilityResolves ++ [⟨fulfillerId, target⟩]
            heldPromiseCapabilityFulfillerIds :=
              insert fulfillerId runtime.heldPromiseCapabilityFulfillerIds })

/-- Nothing happens without the id in the held set; else the first entry with it goes. -/
def dropHeldPromiseCapabilityResolve (runtime : PromiseRuntime Cap) (fulfillerId : UInt32)
    : PromiseRuntime Cap :=
  if fulfillerId ∈ runtime.heldPromiseCapabilityFulfillerIds then
    { runtime with
      heldPromiseCapabilityFulfillerIds :=
        runtime.heldPromiseCapabilityFulfillerIds.erase fulfillerId
      heldPromiseCapabilityResolves :=
        runtime.heldPromiseCapabilityResolves.eraseP
          (fun held => held.fulfillerId = fulfillerId) }
  else runtime

/-- The front entry leaves the queue and the held set before it is delivered. -/
def popHeld (runtime : PromiseRuntime Cap) (request : HeldPromiseCapabilityResolve)
    (rest : List HeldPromiseCapabilityResolve)
    : PromiseRuntime Cap :=
  { runtime with
    heldPromiseCapabilityResolves := rest
    heldPromiseCapabilityFulfillerIds :=
      runtime.heldPromiseCapabilityFulfillerIds.erase request.fulfillerId }

/-- The loop of the flush over the queued entries; a delivery that throws ends it. -/
def flushHeld (runtime : PromiseRuntime Cap) (flushed : Nat)
    : List HeldPromiseCapabilityResolve → Except String Nat × PromiseRuntime Cap
  | [] => (.ok flushed, runtime)
  | request :: rest =>
      let popped := popHeld runtime request rest
      match promiseCapabilityFulfillNow popped request.fulfillerId request.target with
      | (.error message, runtime) => (.error message, runtime)
      | (.ok _, runtime) => flushHeld runtime (flushed + 1) rest

def flushHeldPromiseCapabilityResolves (runtime : PromiseRuntime Cap)
    : Except String Nat × PromiseRuntime Cap :=
  flushHeld runtime 0 runtime.heldPromiseCapabilityResolves

def setResolveHoldEnabled (runtime : PromiseRuntime Cap) (enabled : Bool)
    : PromiseRuntime Cap :=
  { runtime with holdPromiseCapabilityResolves := enabled }

/-- `kj::str(message.c_str())` ends at the first NUL. -/
def cString (message : String) : String :=
  String.ofList (message.toList.takeWhile (fun c => c.toNat != 0))

def promiseCapabilityReject (runtime : PromiseRuntime Cap) (fulfillerId : UInt32)
    (exceptionTypeTag : UInt8) (message : String) (detailBytes : List UInt8)
    : Except String Unit × PromiseRuntime Cap :=
  let runtime := dropHeldPromiseCapabilityResolve runtime fulfillerId
  match runtime.promiseCapabilityFulfillers.lookup fulfillerId with
  | none => (.error (unknownFulfiller fulfillerId), runtime)
  | some promise =>
      let detail := if detailBytes.isEmpty then none else some detailBytes
      (.ok (),
        resolveFulfiller runtime fulfillerId promise
          (.rejected (decodeRemoteExceptionType exceptionTypeTag) (cString message) detail))

def promiseCapabilityRelease (runtime : PromiseRuntime Cap) (fulfillerId : UInt32)
    : PromiseRuntime Cap :=
  let runtime := dropHeldPromiseCapabilityResolve runtime fulfillerId
  match runtime.promiseCapabilityFulfillers.lookup fulfillerId with
  | none => runtime
  | some promise =>
      resolveFulfiller runtime fulfillerId promise
        (.rejected .disconnected "promise capability fulfiller released" none)

-----------------------------------------------------------------------------------------
-- The operations as one step function
-----------------------------------------------------------------------------------------

/-- What happens to promised capabilities and targets. -/
inductive PromiseOp (Cap : Type*) where
  | newPromise (promise : Cap)
  | fulfill (fulfillerId target : UInt32)
  | reject (fulfillerId : UInt32) (exceptionTypeTag : UInt8) (message : String)
      (detailBytes : List UInt8)
  | release (fulfillerId : UInt32)
  | setHold (enabled : Bool)
  | flush
  | onTargets (op : TargetOp Cap)

/-- What an operation answers. -/
inductive PromiseAnswer where
  | unit
  | flushed (count : Nat)
  | ids (targetId fulfillerId : UInt32)
  | target (id : Option UInt32)
deriving DecidableEq

/-- One operation: its answer and the state it leaves, also when it throws. -/
def PromiseOp.run (runtime : PromiseRuntime Cap)
    : PromiseOp Cap → Option (Except String PromiseAnswer × PromiseRuntime Cap)
  | .newPromise promise =>
      (newPromiseCapability runtime promise).map
        (fun ((targetId, fulfillerId), runtime) => (.ok (.ids targetId fulfillerId), runtime))
  | .fulfill fulfillerId target =>
      let (answer, runtime) := promiseCapabilityFulfill runtime fulfillerId target
      some (answer.map (fun _ => .unit), runtime)
  | .reject fulfillerId exceptionTypeTag message detailBytes =>
      let (answer, runtime) :=
        promiseCapabilityReject runtime fulfillerId exceptionTypeTag message detailBytes
      some (answer.map (fun _ => .unit), runtime)
  | .release fulfillerId => some (.ok .unit, promiseCapabilityRelease runtime fulfillerId)
  | .setHold enabled => some (.ok .unit, setResolveHoldEnabled runtime enabled)
  | .flush =>
      let (answer, runtime) := flushHeldPromiseCapabilityResolves runtime
      some (answer.map .flushed, runtime)
  | .onTargets op =>
      (op.run runtime.targets).map (fun (answer, targets) =>
        (answer.map .target, { runtime with targets := targets }))

end Capnp.Rpc
