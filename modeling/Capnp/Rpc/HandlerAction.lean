import Capnp.Rpc.PromiseCapability

/-! What a Lean handler answers to a call, and the payloads and capability tables in it.
Reading a message and copying its root are the serialization library's; everything around
them is the bridge's.
-/

namespace Capnp.Rpc

-----------------------------------------------------------------------------------------
-- Actions of an advanced handler
-----------------------------------------------------------------------------------------

/-- The value an advanced handler returns. Tasks are named by numbers. -/
inductive RawAdvancedHandlerResult where
  | returnPayload (response responseCaps : List UInt8)
  | asyncCall (target : UInt32) (interfaceId : UInt64) (methodId : UInt16)
      (request requestCaps : List UInt8)
  | tailCall (target : UInt32) (interfaceId : UInt64) (methodId : UInt16)
      (request requestCaps : List UInt8)
  | throwRemote (message : String) (detail : List UInt8)
  | control (releaseParams allowCancellation isStreaming : Bool)
      (next : RawAdvancedHandlerResult)
  | awaitTask (task cancelTask : Nat)
  | sendResultsToCaller (next : RawAdvancedHandlerResult)
  | callHints (noPromisePipelining onlyPromisePipeline : Bool)
      (next : RawAdvancedHandlerResult)
  | exceptionType (type : UInt8) (next : RawAdvancedHandlerResult)
  | setPipeline (pipeline pipelineCaps : List UInt8) (next : RawAdvancedHandlerResult)

/-- What an action does. -/
inductive ActionKind where
  | returnPayload (payloadBytes payloadCaps : List UInt8)
  | asyncCall (target : UInt32) (interfaceId : UInt64) (methodId : UInt16)
      (payloadBytes payloadCaps : List UInt8)
  | tailCall (target : UInt32) (interfaceId : UInt64) (methodId : UInt16)
      (payloadBytes payloadCaps : List UInt8)
  | throwRemote (message : String) (detailBytes : List UInt8)
  | awaitTask (deferredWaitTask deferredCancelTask : Nat)

def ActionKind.isAsyncCall : ActionKind → Bool
  | .asyncCall _ _ _ _ _ => true
  | _ => false

def ActionKind.isThrowRemote : ActionKind → Bool
  | .throwRemote _ _ => true
  | _ => false

def ActionKind.isAwaitTask : ActionKind → Bool
  | .awaitTask _ _ => true
  | _ => false

/-- The decoded action. `pipeline` is the pipeline payload with its capability table. -/
structure LeanAdvancedHandlerAction where
  kind : ActionKind := .returnPayload [] []
  releaseParams : Bool := false
  allowCancellation : Bool := false
  isStreaming : Bool := false
  sendResultsToCaller : Bool := false
  noPromisePipelining : Bool := false
  onlyPromisePipeline : Bool := false
  pipeline : Option (List UInt8 × List UInt8) := none
  remoteExceptionType : ExceptionType := .failed

/-- The wrappers add to the action read so far; the innermost value gives its kind. -/
def decodeAction (action : LeanAdvancedHandlerAction)
    : RawAdvancedHandlerResult → Except String LeanAdvancedHandlerAction
  | .control releaseParams allowCancellation isStreaming next =>
      decodeAction
        { action with
          releaseParams := releaseParams || action.releaseParams
          allowCancellation := allowCancellation || action.allowCancellation
          isStreaming := isStreaming || action.isStreaming } next
  | .sendResultsToCaller next => decodeAction { action with sendResultsToCaller := true } next
  | .callHints noPromisePipelining onlyPromisePipeline next =>
      decodeAction
        { action with
          noPromisePipelining := noPromisePipelining || action.noPromisePipelining
          onlyPromisePipeline := onlyPromisePipeline || action.onlyPromisePipeline } next
  | .exceptionType type next =>
      decodeAction { action with remoteExceptionType := decodeRemoteExceptionType type } next
  | .setPipeline pipeline pipelineCaps next =>
      if action.pipeline.isSome then
        .error "Lean RPC advanced handler: setPipeline may only be specified once"
      else decodeAction { action with pipeline := some (pipeline, pipelineCaps) } next
  | .returnPayload response responseCaps =>
      .ok { action with kind := .returnPayload response responseCaps }
  | .asyncCall target interfaceId methodId request requestCaps =>
      .ok { action with kind := .asyncCall target interfaceId methodId request requestCaps }
  | .tailCall target interfaceId methodId request requestCaps =>
      .ok { action with kind := .tailCall target interfaceId methodId request requestCaps }
  | .throwRemote message detail =>
      .ok { action with kind := .throwRemote (cString message) detail }
  | .awaitTask task cancelTask => .ok { action with kind := .awaitTask task cancelTask }

-----------------------------------------------------------------------------------------
-- Capability tables and payloads
-----------------------------------------------------------------------------------------

def readUint32Le (b0 b1 b2 b3 : UInt8) : UInt32 :=
  b0.toUInt32 ||| b1.toUInt32 <<< 8 ||| b2.toUInt32 <<< 16 ||| b3.toUInt32 <<< 24

/-- The ids of a capability table, four bytes each. -/
def capTableIds : List UInt8 → List UInt32
  | b0 :: b1 :: b2 :: b3 :: rest => readUint32Le b0 b1 b2 b3 :: capTableIds rest
  | _ => []

def decodeCapTable (data : List UInt8) : Except String (List UInt32) :=
  if data.length % 4 ≠ 0 then
    .error "RPC capability table payload must be a multiple of 4 bytes"
  else .ok (capTableIds data)

/-- The serialization library: reading a message from bytes, and copying its root. -/
structure MessageLibrary where
  readMessage : List UInt8 → Except String Unit
  copyRoot : List UInt8 → Except String Unit

variable {Cap : Type*}

/-- The first id of a capability table that names no target. Null ids stand for null. -/
def firstUnknownCap (runtime : RuntimeTargets Cap) (capIds : List UInt32) : Option UInt32 :=
  capIds.find? (fun capId => capId != 0 && !decide (capId ∈ runtime.targets))

def withDecodedPayloadAndCapTable (library : MessageLibrary) (runtime : RuntimeTargets Cap)
    (payloadBytes : List UInt8) (payloadCapIds : List UInt32) (unknownCapErrorPrefix : String)
    : Except String Unit := do
  library.readMessage payloadBytes
  match firstUnknownCap runtime payloadCapIds with
  | some capId => throw (unknownCapErrorPrefix ++ toString capId.toNat)
  | none => library.copyRoot payloadBytes

def setContextPipelineFromPayload (library : MessageLibrary) (runtime : RuntimeTargets Cap)
    (pipelineBytes pipelineCaps : List UInt8) (unknownCapErrorPrefix : String)
    : Except String Unit := do
  if pipelineBytes.isEmpty then
    if !pipelineCaps.isEmpty then
      throw "RPC pipeline capability table requires a non-empty payload"
  else
    let pipelineCapIds ← decodeCapTable pipelineCaps
    withDecodedPayloadAndCapTable library runtime pipelineBytes pipelineCapIds
      unknownCapErrorPrefix

def setRequestPayload (library : MessageLibrary) (runtime : RuntimeTargets Cap)
    (request : List UInt8) (requestCaps : List UInt32)
    : Except String Unit := do
  if request.isEmpty then
    if !requestCaps.isEmpty then
      throw "RPC request capability table requires a non-empty payload"
  else
    withDecodedPayloadAndCapTable library runtime request requestCaps
      "unknown RPC request capability id: "

end Capnp.Rpc
