import Capnp.Rpc.HandlerAction

/-! The three servers that hand an incoming call to a Lean handler.
Each capability of the request becomes a target before the handler runs; every exit of a
dispatch drops some of those targets. Functions return their answer and the state they
leave, also when they throw.
-/

namespace Capnp.Rpc

variable {Cap : Type*}

/-- What a call ends in when it fails. -/
structure Thrown where
  type : ExceptionType := .failed
  message : String
  detail : Option (List UInt8) := none
deriving DecidableEq

/-- Each present hook of the request's capability table becomes a target. -/
def encodeRequestForLean (runtime : RuntimeTargets Cap)
    : List (Option Cap) → Option (List UInt32 × RuntimeTargets Cap)
  | [] => some ([], runtime)
  | none :: rest => encodeRequestForLean runtime rest
  | some hook :: rest =>
      (addTarget runtime hook).bind (fun (capId, runtime) =>
        Option.map (fun (requestCapIds, runtime) => (capId :: requestCapIds, runtime)) <|
          encodeRequestForLean runtime rest)

/-- The targets made for a request, and whether they were dropped. -/
structure RequestCapCleanupState where
  requestCapIds : List UInt32
  done : Bool := false

/-- A dispatch in progress: the runtime's targets and the call's clean-up state. -/
structure OpenCall (Cap : Type*) where
  runtime : RuntimeTargets Cap
  cleanup : RequestCapCleanupState

/-- The clean-up of a call. When it throws, nothing is dropped and it is still to be done. -/
def cleanupRequestCaps (call : OpenCall Cap) (retainedCaps : List UInt32)
    : Except String Unit × OpenCall Cap :=
  if call.cleanup.done then (.ok (), call)
  else
    match dropRequestCapsExcept call.runtime call.cleanup.requestCapIds retainedCaps with
    | (.error message, runtime) => (.error message, { call with runtime })
    | (.ok _, runtime) => (.ok (), { runtime, cleanup := { call.cleanup with done := true } })

/-- The clean-up that retains nothing, the call `cleanupRequestCaps(cleanupState, {})`. -/
def cleanupAll (call : OpenCall Cap) : OpenCall Cap :=
  (cleanupRequestCaps call []).2

/-- A clean-up that retains nothing never throws. -/
theorem fst_cleanupRequestCaps_nil (call : OpenCall Cap)
    : (cleanupRequestCaps call []).1 = .ok () := by
  simp only [cleanupRequestCaps, dropRequestCapsExcept, List.isEmpty_nil, if_true]
  split <;> rfl

/-- How a dispatch that did not throw goes on: it has returned a response (the capability
ids of a non-streaming one), waits for a forwarded call, or waits for a Lean task.
-/
inductive Completion where
  | ready (responseCaps : List UInt32)
  | forwarding
  | deferred

/-- How a dispatch goes on, and the options of the call. -/
structure DispatchCallResult where
  completion : Completion
  isStreaming : Bool
  allowCancellation : Bool := false

-----------------------------------------------------------------------------------------
-- The plain handler and the tail-call handler
-----------------------------------------------------------------------------------------

/-- `LeanCapabilityServer::dispatchCall` after the handler. An error of the handler drops
through the overload that skips id 0.
-/
def dispatchCapabilityServer (library : MessageLibrary) (runtime : RuntimeTargets Cap)
    (requestCapIds : List UInt32)
    : Except Unit (List UInt8 × List UInt8)
      → Except Thrown DispatchCallResult × RuntimeTargets Cap
  | .error _ =>
      (.error { message := "Lean RPC handler returned IO error" },
        dropRequestCapsExceptOne runtime requestCapIds 0)
  | .ok (response, responseCaps) =>
      match decodeCapTable responseCaps with
      | .error message => (.error { message }, dropRequestCaps runtime requestCapIds)
      | .ok responseCapIds =>
          match dropRequestCapsExcept runtime requestCapIds responseCapIds with
          | (.error message, runtime) =>
              (.error { message }, dropRequestCaps runtime requestCapIds)
          | (.ok _, runtime) =>
              match withDecodedPayloadAndCapTable library runtime response responseCapIds
                "unknown RPC response capability id from Lean handler: " with
              | .error message => (.error { message }, dropRequestCaps runtime requestCapIds)
              | .ok _ =>
                  (.ok { completion := .ready responseCapIds, isStreaming := false }, runtime)

/-- `LeanTailCallHandlerServer::dispatchCall` after the handler. -/
def dispatchTailCallHandlerServer (runtime : RuntimeTargets Cap) (requestCapIds : List UInt32)
    : Except Unit UInt32 → Except Thrown DispatchCallResult × RuntimeTargets Cap
  | .error _ =>
      (.error { message := "Lean RPC tail-call handler returned IO error" },
        dropRequestCapsExceptOne runtime requestCapIds 0)
  | .ok forwardTargetId =>
      if forwardTargetId ∈ runtime.targets then
        (.ok { completion := .forwarding, isStreaming := false },
          dropRequestCapsExceptOne runtime requestCapIds forwardTargetId)
      else
        (.error
          { message :=
              "unknown RPC tail-call target capability id from Lean handler: "
                ++ toString forwardTargetId.toNat },
          dropRequestCapsExceptOne runtime requestCapIds 0)

-----------------------------------------------------------------------------------------
-- The advanced handler
-----------------------------------------------------------------------------------------

/-- What the tasks that have finished by now ended in: an IO error or a value. -/
abbrev FinishedTasks := Nat → Option (Except Unit RawAdvancedHandlerResult)

/-- The action of a finished task. -/
def finishedTaskAction
    : Except Unit RawAdvancedHandlerResult → Except String LeanAdvancedHandlerAction
  | .error _ => .error "Lean RPC advanced deferred handler task returned IO error"
  | .ok actionObj => decodeAction {} actionObj

/-- `waitLeanActionTask` when it is called. A task that has already finished is decoded at
once, and what that throws is thrown by the caller; any other task is looked at again in a
later turn of the event loop.
-/
def waitLeanActionTask (tasks : FinishedTasks) (waitTask : Nat)
    : Except String (Option LeanAdvancedHandlerAction) :=
  match tasks waitTask with
  | none => .ok none
  | some result => (finishedTaskAction result).map some

/-- The request of a forwarded call: its capability table, then its payload. -/
def setForwardPayload (library : MessageLibrary) (runtime : RuntimeTargets Cap)
    (payloadBytes payloadCaps : List UInt8)
    : Except String Unit := do
  let requestCapIdsOut ← decodeCapTable payloadCaps
  setRequestPayload library runtime payloadBytes requestCapIdsOut

/-- The part of `dispatchDecodedAction` that depends on the action's kind. -/
def dispatchActionKind (library : MessageLibrary) (tasks : FinishedTasks)
    (action : LeanAdvancedHandlerAction) (call : OpenCall Cap)
    : Except Thrown DispatchCallResult × OpenCall Cap :=
  let result (completion : Completion) : DispatchCallResult :=
    ⟨completion, action.isStreaming, action.allowCancellation⟩
  match action.kind with
  | .returnPayload payloadBytes payloadCaps =>
      match decodeCapTable payloadCaps with
      | .error message => (.error { message }, call)
      | .ok responseCapIds =>
          if action.isStreaming then
            let call := cleanupAll call
            let nonNull := responseCapIds.filter (fun capId => capId != 0)
            (.ok (result (.ready [])),
              { call with runtime := dropRequestCaps call.runtime nonNull })
          else
            match cleanupRequestCaps call responseCapIds with
            | (.error message, call) => (.error { message }, call)
            | (.ok _, call) =>
                match withDecodedPayloadAndCapTable library call.runtime payloadBytes
                  responseCapIds
                  "unknown RPC response capability id from Lean advanced handler: " with
                | .error message => (.error { message }, call)
                | .ok _ => (.ok (result (.ready responseCapIds)), call)
  | .asyncCall target _ _ payloadBytes payloadCaps =>
      if target ∈ call.runtime.targets then
        match setForwardPayload library call.runtime payloadBytes payloadCaps with
        | .error message => (.error { message }, call)
        | .ok _ =>
            let call := cleanupAll call
            if !action.sendResultsToCaller && action.onlyPromisePipeline then
              (.error
                { message :=
                    "Lean RPC advanced handler: onlyPromisePipeline requires sendResultsTo.caller" },
                call)
            else (.ok (result .forwarding), call)
      else
        (.error
          { message :=
              "unknown RPC async-call target capability id from Lean handler: "
                ++ toString target.toNat },
          cleanupAll call)
  | .tailCall target _ _ payloadBytes payloadCaps =>
      if target ∈ call.runtime.targets then
        match setForwardPayload library call.runtime payloadBytes payloadCaps with
        | .error message => (.error { message }, call)
        | .ok _ => (.ok (result .forwarding), cleanupAll call)
      else
        (.error
          { message :=
              "unknown RPC tail-call target capability id from Lean advanced handler: "
                ++ toString target.toNat },
          cleanupAll call)
  | .throwRemote message detailBytes =>
      (.error
        { type := action.remoteExceptionType
          message := message
          detail := if detailBytes.isEmpty then none else some detailBytes },
        cleanupAll call)
  | .awaitTask waitTask _ =>
      match waitLeanActionTask tasks waitTask with
      | .error message => (.error { message }, call)
      | .ok _ => (.ok (result .deferred), call)

/-- The options that only some kinds of action may carry, checked before anything else. -/
def misusedOption (action : LeanAdvancedHandlerAction) : Option String :=
  if (action.sendResultsToCaller || action.noPromisePipelining || action.onlyPromisePipeline)
      && !action.kind.isAsyncCall then
    some "Lean RPC advanced handler: forward options are only valid with forwardCall"
  else if action.remoteExceptionType ≠ .failed ∧ !action.kind.isThrowRemote then
    some "Lean RPC advanced handler: exceptionType is only valid with throwRemote"
  else if action.pipeline.isSome && !action.kind.isAwaitTask then
    some "Lean RPC advanced handler: setPipeline is only valid with defer"
  else none

def dispatchDecodedAction (library : MessageLibrary) (tasks : FinishedTasks)
    (action : LeanAdvancedHandlerAction) (call : OpenCall Cap)
    : Except Thrown DispatchCallResult × OpenCall Cap :=
  match misusedOption action with
  | some message => (.error { message }, cleanupAll call)
  | none =>
      match action.pipeline with
      | none => dispatchActionKind library tasks action call
      | some (pipelineBytes, pipelineCaps) =>
          match setContextPipelineFromPayload library call.runtime pipelineBytes pipelineCaps
            "unknown RPC pipeline capability id: " with
          | .error message => (.error { message }, cleanupAll call)
          | .ok _ => dispatchActionKind library tasks action call

/-- `LeanAdvancedCapabilityServer::dispatchCall` after the handler: whatever is thrown, the
clean-up runs unless it ran before.
-/
def dispatchAdvancedServer (library : MessageLibrary) (tasks : FinishedTasks)
    (call : OpenCall Cap)
    : Except Unit RawAdvancedHandlerResult
      → Except Thrown DispatchCallResult × OpenCall Cap
  | .error _ =>
      (.error { message := "Lean RPC advanced handler returned IO error" },
        cleanupAll call)
  | .ok actionObj =>
      match decodeAction {} actionObj with
      | .error message => (.error { message }, cleanupAll call)
      | .ok action =>
          match dispatchDecodedAction library tasks action call with
          | (.error thrown, call) => (.error thrown, cleanupAll call)
          | (.ok result, call) => (.ok result, call)

/-- The flags of the action that deferred, which bound those of the action that follows. -/
structure EarlyFlags where
  allowCancellation : Bool
  isStreaming : Bool

/-- The options that an action may only carry when the one that deferred to it did. -/
def lateOption (early : EarlyFlags) (nextAction : LeanAdvancedHandlerAction) : Option String :=
  if nextAction.allowCancellation && !early.allowCancellation then
    some "Lean RPC advanced deferred handler: allowCancellation must be set before defer"
  else if nextAction.isStreaming && !early.isStreaming then
    some "Lean RPC advanced deferred handler: isStreaming must be set before defer"
  else none

/-- The continuation of a deferred call. A task that fails in a later turn, or whose value
does not decode then, goes to the error handler, which cleans up. What the success handler
throws does not go there: it only reaches the handler around an enclosing deferral, when
`nested`.
-/
def dispatchDeferred (library : MessageLibrary) (tasks : FinishedTasks) (early : EarlyFlags)
    (nested : Bool) (call : OpenCall Cap) (outcome : Except Unit RawAdvancedHandlerResult)
    : Except Thrown DispatchCallResult × OpenCall Cap :=
  match finishedTaskAction outcome with
  | .error message => (.error { message }, cleanupAll call)
  | .ok nextAction =>
      match lateOption early nextAction with
      | some message => (.error { message }, cleanupAll call)
      | none =>
          match dispatchDecodedAction library tasks nextAction call with
          | (.error thrown, call) =>
              (.error thrown, if nested then cleanupAll call else call)
          | (.ok result, call) => (.ok result, call)

end Capnp.Rpc
