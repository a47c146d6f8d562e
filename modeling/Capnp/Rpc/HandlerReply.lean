import Capnp.Rpc.Dispatch
import Capnp.Rpc.IdCodecs
import Capnp.Runtime.Framing
import Mathlib.Data.List.TakeWhile

/-! The replies of an advanced handler on their way to the bridge: the tree that the handler
returns, the raw reply made from it, the raw reply as an object of the compiled program, and
the action that the bridge decodes from the object.
-/

namespace Capnp.Rpc

-----------------------------------------------------------------------------------------
-- Replies
-----------------------------------------------------------------------------------------

/-- A message with its capability table. -/
structure Payload where
  msg : Message
  capTable : CapTable

def Payload.toBytes (payload : Payload) : List UInt8 :=
  writeMessage payload.msg

def Payload.capTableBytes (payload : Payload) : List UInt8 :=
  payload.capTable.toBytes

/-- A method by its interface and its ordinal. -/
structure Method where
  interfaceId : UInt64
  methodId : UInt16
deriving DecidableEq

/-- The options of a control node. -/
structure AdvancedHandlerControl where
  releaseParams : Bool := false
  allowCancellation : Bool := false
  isStreaming : Bool := false
deriving DecidableEq

def AdvancedHandlerControl.hasAny (opts : AdvancedHandlerControl) : Bool :=
  opts.releaseParams || opts.allowCancellation || opts.isStreaming

def AdvancedHandlerControl.merge (first second : AdvancedHandlerControl)
    : AdvancedHandlerControl where
  releaseParams := first.releaseParams || second.releaseParams
  allowCancellation := first.allowCancellation || second.allowCancellation
  isStreaming := first.isStreaming || second.isStreaming

/-- Where the results of a forwarded call go. -/
inductive AdvancedSendResultsTo where
  | yourself
  | caller
deriving DecidableEq

/-- The hints for a forwarded call. -/
structure AdvancedCallHints where
  noPromisePipelining : Bool := false
  onlyPromisePipeline : Bool := false

/-- The options of a forwarded call. -/
structure AdvancedForwardOptions where
  sendResultsTo : AdvancedSendResultsTo := .yourself
  callHints : AdvancedCallHints := {}

def ExceptionType.toUInt8 : ExceptionType → UInt8
  | .failed => 0
  | .overloaded => 1
  | .disconnected => 2
  | .unimplemented => 3

/-- What a handler answers at once. -/
inductive AdvancedHandlerResult where
  | respond (payload : Payload)
  | asyncCall (target : UInt32) (method : Method) (payload : Payload)
  | forwardCall (target : UInt32) (method : Method) (payload : Payload)
      (options : AdvancedForwardOptions)
  | tailCall (target : UInt32) (method : Method) (payload : Payload)
  | throwRemote (message : String) (detail : List UInt8)
  | throwRemoteWithType (type : ExceptionType) (message : String) (detail : List UInt8)
  | control (opts : AdvancedHandlerControl) (next : AdvancedHandlerResult)

/-- Tasks are named by numbers. -/
inductive AdvancedHandlerReply where
  | now (result : AdvancedHandlerResult)
  | deferred (task : Nat)
  | deferredWithCancel (task cancelTask : Nat)
  | control (opts : AdvancedHandlerControl) (next : AdvancedHandlerReply)
  | pipeline (pipeline : Payload) (next : AdvancedHandlerReply)

/-- `applyAdvancedHandlerReplyControl`: options are merged into a control node at the root. -/
def AdvancedHandlerReply.withControl (opts : AdvancedHandlerControl)
    (next : AdvancedHandlerReply) : AdvancedHandlerReply :=
  if opts.hasAny then
    match next with
    | .control nested nestedNext => .control (nested.merge opts) nestedNext
    | _ => .control opts next
  else next

def toRawAdvancedHandlerResult : AdvancedHandlerResult → RawAdvancedHandlerResult
  | .respond response => .returnPayload response.toBytes response.capTableBytes
  | .asyncCall nextTarget nextMethod nextPayload =>
      .asyncCall nextTarget nextMethod.interfaceId nextMethod.methodId
        nextPayload.toBytes nextPayload.capTableBytes
  | .forwardCall nextTarget nextMethod nextPayload options =>
      let base : RawAdvancedHandlerResult :=
        .asyncCall nextTarget nextMethod.interfaceId nextMethod.methodId
          nextPayload.toBytes nextPayload.capTableBytes
      let withHints : RawAdvancedHandlerResult :=
        .callHints options.callHints.noPromisePipelining options.callHints.onlyPromisePipeline base
      match options.sendResultsTo with
      | .yourself => withHints
      | .caller => .sendResultsToCaller withHints
  | .tailCall nextTarget nextMethod nextPayload =>
      .tailCall nextTarget nextMethod.interfaceId nextMethod.methodId
        nextPayload.toBytes nextPayload.capTableBytes
  | .throwRemote message detail => .throwRemote message detail
  | .throwRemoteWithType type message detail =>
      .exceptionType type.toUInt8 (.throwRemote message detail)
  | .control opts next =>
      .control opts.releaseParams opts.allowCancellation opts.isStreaming
        (toRawAdvancedHandlerResult next)

/-- `mapDeferred task` is the task that converts the result of `task` once it is there. -/
def toRawAdvancedHandlerReply (mapDeferred : Nat → Nat)
    : AdvancedHandlerReply → RawAdvancedHandlerResult
  | .now result => toRawAdvancedHandlerResult result
  | .deferred task => .awaitTask (mapDeferred task) task
  | .deferredWithCancel task cancelTask => .awaitTask (mapDeferred task) cancelTask
  | .control opts next =>
      .control opts.releaseParams opts.allowCancellation opts.isStreaming
        (toRawAdvancedHandlerReply mapDeferred next)
  | .pipeline pipeline next =>
      .setPipeline pipeline.toBytes pipeline.capTableBytes
        (toRawAdvancedHandlerReply mapDeferred next)

-----------------------------------------------------------------------------------------
-- Raw replies as objects
-----------------------------------------------------------------------------------------

/-- A constructor object holds its object fields in their order and then its scalar fields,
the larger ones first; `scalars` gives their values by their offsets behind the object fields.
-/
inductive LeanObject where
  | byteArray (data : List UInt8)
  | string (text : String)
  | task (id : Nat)
  | ctor (tag : Nat) (fields : List LeanObject) (scalars : List (Nat × Nat))

/-- Constructors are tagged in the order of their declaration. -/
def RawAdvancedHandlerResult.toObject : RawAdvancedHandlerResult → LeanObject
  | .returnPayload response responseCaps =>
      .ctor 0 [.byteArray response, .byteArray responseCaps] []
  | .asyncCall target interfaceId methodId request requestCaps =>
      .ctor 1 [.byteArray request, .byteArray requestCaps]
        [(0, interfaceId.toNat), (8, target.toNat), (12, methodId.toNat)]
  | .tailCall target interfaceId methodId request requestCaps =>
      .ctor 2 [.byteArray request, .byteArray requestCaps]
        [(0, interfaceId.toNat), (8, target.toNat), (12, methodId.toNat)]
  | .throwRemote message detail => .ctor 3 [.string message, .byteArray detail] []
  | .control releaseParams allowCancellation isStreaming next =>
      .ctor 4 [next.toObject]
        [(0, releaseParams.toNat), (1, allowCancellation.toNat), (2, isStreaming.toNat)]
  | .awaitTask task cancelTask => .ctor 5 [.task task, .task cancelTask] []
  | .sendResultsToCaller next => .ctor 6 [next.toObject] []
  | .callHints noPromisePipelining onlyPromisePipeline next =>
      .ctor 7 [next.toObject] [(0, noPromisePipelining.toNat), (1, onlyPromisePipeline.toNat)]
  | .exceptionType type next => .ctor 8 [next.toObject] [(0, type.toNat)]
  | .setPipeline pipeline pipelineCaps next =>
      .ctor 9 [.byteArray pipeline, .byteArray pipelineCaps, next.toObject] []

namespace LeanObject

/-- The byte array behind a reference. -/
def bytes : LeanObject → List UInt8
  | .byteArray data => data
  | _ => []

def text : LeanObject → String
  | .string text => text
  | _ => ""

def taskId : LeanObject → Nat
  | .task id => id
  | _ => 0

/-- The scalar of a constructor object at an offset that counts from its first object field,
each of which takes eight bytes.
-/
def scalarAt (fields : List LeanObject) (scalars : List (Nat × Nat)) (offset : Nat) : Nat :=
  (scalars.lookup (offset - 8 * fields.length)).getD 0

end LeanObject

/-- The loop of the C++ decoder. An object of another shape is none that the handler makes. -/
def decodeActionObject (action : LeanAdvancedHandlerAction)
    : LeanObject → Except String LeanAdvancedHandlerAction
  | .ctor 4 [next] scalars =>
      let flag (offset : Nat) : Bool := LeanObject.scalarAt [next] scalars offset != 0
      let action := if flag 8 then { action with releaseParams := true } else action
      let action := if flag 9 then { action with allowCancellation := true } else action
      let action := if flag 10 then { action with isStreaming := true } else action
      decodeActionObject action next
  | .ctor 6 [next] _ => decodeActionObject { action with sendResultsToCaller := true } next
  | .ctor 7 [next] scalars =>
      let flag (offset : Nat) : Bool := LeanObject.scalarAt [next] scalars offset != 0
      let action := if flag 8 then { action with noPromisePipelining := true } else action
      let action := if flag 9 then { action with onlyPromisePipeline := true } else action
      decodeActionObject action next
  | .ctor 8 [next] scalars =>
      let type : ExceptionType :=
        match LeanObject.scalarAt [next] scalars 8 with
        | 0 => .failed
        | 1 => .overloaded
        | 2 => .disconnected
        | 3 => .unimplemented
        | _ => .failed
      decodeActionObject { action with remoteExceptionType := type } next
  | .ctor 9 [pipeline, pipelineCaps, next] _ =>
      if action.pipeline.isSome then
        .error "Lean RPC advanced handler: setPipeline may only be specified once"
      else
        decodeActionObject { action with pipeline := some (pipeline.bytes, pipelineCaps.bytes) }
          next
  | .ctor 0 [response, responseCaps] _ =>
      .ok { action with kind := .returnPayload response.bytes responseCaps.bytes }
  | .ctor 1 [request, requestCaps] scalars =>
      let scalar := LeanObject.scalarAt [request, requestCaps] scalars
      .ok
        { action with
          kind :=
            .asyncCall (UInt32.ofNat (scalar 24)) (UInt64.ofNat (scalar 16))
              (UInt16.ofNat (scalar 28)) request.bytes requestCaps.bytes }
  | .ctor 2 [request, requestCaps] scalars =>
      let scalar := LeanObject.scalarAt [request, requestCaps] scalars
      .ok
        { action with
          kind :=
            .tailCall (UInt32.ofNat (scalar 24)) (UInt64.ofNat (scalar 16))
              (UInt16.ofNat (scalar 28)) request.bytes requestCaps.bytes }
  | .ctor 3 [message, detail] _ =>
      .ok { action with kind := .throwRemote (cString message.text) detail.bytes }
  | .ctor 5 [waitTask, cancelTask] _ =>
      .ok { action with kind := .awaitTask waitTask.taskId cancelTask.taskId }
  | _ => .error "unknown Lean RPC advanced handler result tag"

/-- Constructor by constructor the object decodes to the action of the raw reply. -/
theorem decodeActionObject_toObject (raw : RawAdvancedHandlerResult)
    (action : LeanAdvancedHandlerAction)
    : decodeActionObject action raw.toObject = decodeAction action raw := by
  induction raw generalizing action with
  | returnPayload response responseCaps => rfl
  | asyncCall target interfaceId methodId request requestCaps =>
      simp [RawAdvancedHandlerResult.toObject, decodeActionObject, LeanObject.scalarAt,
        LeanObject.bytes, decodeAction, List.lookup_cons]
  | tailCall target interfaceId methodId request requestCaps =>
      simp [RawAdvancedHandlerResult.toObject, decodeActionObject, LeanObject.scalarAt,
        LeanObject.bytes, decodeAction, List.lookup_cons]
  | throwRemote message detail => rfl
  | control releaseParams allowCancellation isStreaming next ih =>
      cases releaseParams <;> cases allowCancellation <;> cases isStreaming <;> exact ih _
  | awaitTask task cancelTask => rfl
  | sendResultsToCaller next ih => exact ih _
  | callHints noPromisePipelining onlyPromisePipeline next ih =>
      cases noPromisePipelining <;> cases onlyPromisePipeline <;> exact ih _
  | exceptionType type next ih => exact ih _
  | setPipeline pipeline pipelineCaps next ih =>
      cases given : action.pipeline with
      | none =>
          simp only [RawAdvancedHandlerResult.toObject, decodeActionObject, decodeAction, given,
            Option.isSome_none, Bool.false_eq_true, if_false]
          exact ih _
      | some _ =>
          simp [RawAdvancedHandlerResult.toObject, decodeActionObject, decodeAction, given]

-----------------------------------------------------------------------------------------
-- What a reply means
-----------------------------------------------------------------------------------------

namespace AdvancedHandlerResult

/-- The control nodes from the root on. -/
def controls : AdvancedHandlerResult → List AdvancedHandlerControl
  | .control opts next => opts :: next.controls
  | _ => []

/-- The result without its control nodes. -/
def leaf : AdvancedHandlerResult → AdvancedHandlerResult
  | .control _ next => next.leaf
  | result => result

/-- The text of a remote exception. -/
def message? : AdvancedHandlerResult → Option String
  | .throwRemote message _ => some message
  | .throwRemoteWithType _ message _ => some message
  | .control _ next => next.message?
  | _ => none

/-- The action that a leaf stands for. -/
def leafAction : AdvancedHandlerResult → LeanAdvancedHandlerAction
  | .respond payload => { kind := .returnPayload payload.toBytes payload.capTableBytes }
  | .asyncCall target method payload =>
      { kind :=
          .asyncCall target method.interfaceId method.methodId payload.toBytes
            payload.capTableBytes }
  | .forwardCall target method payload options =>
      { kind :=
          .asyncCall target method.interfaceId method.methodId payload.toBytes
            payload.capTableBytes
        sendResultsToCaller := options.sendResultsTo = .caller
        noPromisePipelining := options.callHints.noPromisePipelining
        onlyPromisePipeline := options.callHints.onlyPromisePipeline }
  | .tailCall target method payload =>
      { kind :=
          .tailCall target method.interfaceId method.methodId payload.toBytes
            payload.capTableBytes }
  | .throwRemote message detail => { kind := .throwRemote message detail }
  | .throwRemoteWithType type message detail =>
      { kind := .throwRemote message detail, remoteExceptionType := type }
  | .control _ next => next.leafAction

end AdvancedHandlerResult

namespace AdvancedHandlerReply

def controls : AdvancedHandlerReply → List AdvancedHandlerControl
  | .now result => result.controls
  | .deferred _ => []
  | .deferredWithCancel _ _ => []
  | .control opts next => opts :: next.controls
  | .pipeline _ next => next.controls

/-- The reply without its control nodes. -/
def plain : AdvancedHandlerReply → AdvancedHandlerReply
  | .now result => .now result.leaf
  | .control _ next => next.plain
  | .pipeline payload next => .pipeline payload next.plain
  | reply => reply

def pipelines : AdvancedHandlerReply → List Payload
  | .control _ next => next.pipelines
  | .pipeline payload next => payload :: next.pipelines
  | _ => []

def message? : AdvancedHandlerReply → Option String
  | .now result => result.message?
  | .control _ next => next.message?
  | .pipeline _ next => next.message?
  | _ => none

def leafAction (mapDeferred : Nat → Nat) : AdvancedHandlerReply → LeanAdvancedHandlerAction
  | .now result => result.leafAction
  | .deferred task => { kind := .awaitTask (mapDeferred task) task }
  | .deferredWithCancel task cancelTask => { kind := .awaitTask (mapDeferred task) cancelTask }
  | .control _ next => next.leafAction mapDeferred
  | .pipeline _ next => next.leafAction mapDeferred

end AdvancedHandlerReply

/-- An action under further flags and, if given, a pipeline. -/
def LeanAdvancedHandlerAction.under (action : LeanAdvancedHandlerAction)
    (controls : List AdvancedHandlerControl) (pipeline : Option (List UInt8 × List UInt8))
    : LeanAdvancedHandlerAction :=
  { action with
    releaseParams := controls.any AdvancedHandlerControl.releaseParams
    allowCancellation := controls.any AdvancedHandlerControl.allowCancellation
    isStreaming := controls.any AdvancedHandlerControl.isStreaming
    pipeline }

/-- Every type of exception has a number of its own. -/
@[simp] theorem decodeRemoteExceptionType_toUInt8 (type : ExceptionType)
    : decodeRemoteExceptionType type.toUInt8 = type := by
  cases type <;> rfl

/-- Up to the first zero character a text without any is itself. -/
theorem cString_eq_self {message : String}
    (nulFree : ∀ c ∈ message.toList, c.toNat ≠ 0)
    : cString message = message := by
  unfold cString
  rw [List.takeWhile_eq_self_iff.mpr (fun c member => by simpa using nulFree c member)]
  exact String.ofList_toList

/-- A control node on the way down is one more that was met. -/
theorem decodeAction_control (met : List AdvancedHandlerControl)
    (pipeline : Option (List UInt8 × List UInt8)) (opts : AdvancedHandlerControl)
    (next : RawAdvancedHandlerResult)
    : decodeAction (LeanAdvancedHandlerAction.under {} met pipeline)
        (.control opts.releaseParams opts.allowCancellation opts.isStreaming next)
      = decodeAction (LeanAdvancedHandlerAction.under {} (met ++ [opts]) pipeline) next := by
  simp [decodeAction, LeanAdvancedHandlerAction.under, Bool.or_comm]

section Decoding

attribute [local simp] toRawAdvancedHandlerResult toRawAdvancedHandlerReply decodeAction
  LeanAdvancedHandlerAction.under AdvancedHandlerResult.leafAction
  AdvancedHandlerResult.controls AdvancedHandlerReply.leafAction AdvancedHandlerReply.controls
  AdvancedHandlerReply.pipelines

/-- The control nodes met on the way down are those of the whole spine, by induction on the
result.
-/
theorem decodeAction_result (result : AdvancedHandlerResult)
    (nulFree : ∀ message ∈ result.message?, ∀ c ∈ message.toList, c.toNat ≠ 0)
    (met : List AdvancedHandlerControl) (pipeline : Option (List UInt8 × List UInt8))
    : decodeAction (LeanAdvancedHandlerAction.under {} met pipeline)
        (toRawAdvancedHandlerResult result)
      = .ok (result.leafAction.under (met ++ result.controls) pipeline) := by
  induction result generalizing met with
  | respond payload => simp
  | asyncCall target method payload => simp
  | forwardCall target method payload options =>
      obtain ⟨sendResultsTo, callHints⟩ := options
      cases sendResultsTo with
      | yourself => simp
      | caller => simp
  | tailCall target method payload => simp
  | throwRemote message detail => simp [cString_eq_self (nulFree message rfl)]
  | throwRemoteWithType type message detail => simp [cString_eq_self (nulFree message rfl)]
  | control opts next ih =>
      refine (decodeAction_control met pipeline opts _).trans ?_
      rw [ih nulFree]
      simp

/-- The pipelines met on the way down and those below, as the bridge keeps them. -/
def AdvancedHandlerReply.pipelinePayloads (met : Option (List UInt8 × List UInt8))
    (reply : AdvancedHandlerReply) : List (List UInt8 × List UInt8) :=
  met.toList ++ reply.pipelines.map (fun payload => (payload.toBytes, payload.capTableBytes))

/-- The same for replies, where a second pipeline ends the decoding, by induction on the
reply.
-/
theorem decodeAction_reply (mapDeferred : Nat → Nat) (reply : AdvancedHandlerReply)
    (nulFree : ∀ message ∈ reply.message?, ∀ c ∈ message.toList, c.toNat ≠ 0)
    (met : List AdvancedHandlerControl) (pipeline : Option (List UInt8 × List UInt8))
    : decodeAction (LeanAdvancedHandlerAction.under {} met pipeline)
        (toRawAdvancedHandlerReply mapDeferred reply)
      = if (reply.pipelinePayloads pipeline).length ≤ 1 then
          .ok
            ((reply.leafAction mapDeferred).under (met ++ reply.controls)
              (reply.pipelinePayloads pipeline).head?)
        else .error "Lean RPC advanced handler: setPipeline may only be specified once" := by
  induction reply generalizing met pipeline with
  | now result =>
      refine (decodeAction_result result nulFree met pipeline).trans ?_
      cases pipeline <;> rfl
  | deferred task => cases pipeline <;> simp [AdvancedHandlerReply.pipelinePayloads]
  | deferredWithCancel task cancelTask =>
      cases pipeline <;> simp [AdvancedHandlerReply.pipelinePayloads]
  | control opts next ih =>
      refine (decodeAction_control met pipeline opts _).trans ?_
      rw [ih nulFree]
      simp [AdvancedHandlerReply.pipelinePayloads]
  | pipeline payload next ih =>
      cases pipeline with
      | some earlier => simp [AdvancedHandlerReply.pipelinePayloads]
      | none => exact ih nulFree met (some (payload.toBytes, payload.capTableBytes))

end Decoding

-----------------------------------------------------------------------------------------
-- Control nodes in another order, merged or repeated
-----------------------------------------------------------------------------------------

/-- Control nodes in another order, merged into their neighbours, or repeated. -/
inductive Rearranged : List AdvancedHandlerControl → List AdvancedHandlerControl → Prop
  | reorder {before after : List AdvancedHandlerControl} (perm : before.Perm after)
    : Rearranged before after
  | merge (first second : AdvancedHandlerControl) (rest : List AdvancedHandlerControl)
    : Rearranged (first :: second :: rest) (first.merge second :: rest)
  | again (first : AdvancedHandlerControl) (rest : List AdvancedHandlerControl)
    : Rearranged (first :: rest) (first :: first :: rest)
  | symm {before after : List AdvancedHandlerControl} (other : Rearranged before after)
    : Rearranged after before
  | trans {first middle last : List AdvancedHandlerControl} (left : Rearranged first middle)
    (right : Rearranged middle last)
    : Rearranged first last

/-- Each flag of an action is a disjunction over all control nodes. -/
theorem Rearranged.under_eq {before after : List AdvancedHandlerControl}
    (rearranged : Rearranged before after) (action : LeanAdvancedHandlerAction)
    (pipeline : Option (List UInt8 × List UInt8))
    : action.under before pipeline = action.under after pipeline := by
  induction rearranged with
  | reorder perm => simp only [LeanAdvancedHandlerAction.under, perm.any_eq]
  | merge first second rest =>
      simp [LeanAdvancedHandlerAction.under, AdvancedHandlerControl.merge, Bool.or_assoc]
  | again first rest => simp [LeanAdvancedHandlerAction.under]
  | symm _ ih => exact ih.symm
  | trans _ _ left right => exact left.trans right

namespace AdvancedHandlerReply

/-- The leaf alone stands for the same action. -/
theorem leafAction_leaf (result : AdvancedHandlerResult)
    : result.leaf.leafAction = result.leafAction ∧ result.leaf.message? = result.message? := by
  induction result with
  | control opts next ih => exact ih
  | _ => exact ⟨rfl, rfl⟩

/-- Taking the control nodes out changes nothing else, by induction on the reply. -/
theorem plain_spec (mapDeferred : Nat → Nat) (reply : AdvancedHandlerReply)
    : reply.plain.leafAction mapDeferred = reply.leafAction mapDeferred
      ∧ reply.plain.pipelines = reply.pipelines
      ∧ reply.plain.message? = reply.message? := by
  induction reply with
  | now result =>
      obtain ⟨action, message⟩ := leafAction_leaf result
      exact ⟨action, rfl, message⟩
  | deferred task => exact ⟨rfl, rfl, rfl⟩
  | deferredWithCancel task cancelTask => exact ⟨rfl, rfl, rfl⟩
  | control opts next ih => exact ih
  | pipeline payload next ih =>
      obtain ⟨action, pipelines, message⟩ := ih
      exact ⟨action, congrArg (payload :: ·) pipelines, message⟩

/-- Options given to the root are a rearrangement of a further control node. -/
theorem withControl_spec (opts : AdvancedHandlerControl) (next : AdvancedHandlerReply)
    : (withControl opts next).plain = next.plain
      ∧ ∀ action pipeline,
          LeanAdvancedHandlerAction.under action (withControl opts next).controls pipeline
          = action.under (opts :: next.controls) pipeline := by
  unfold withControl
  by_cases any : opts.hasAny = true
  · rw [if_pos any]
    cases next with
    | control nested nestedNext =>
        refine ⟨rfl, fun action pipeline => ?_⟩
        have swapped : Rearranged (opts :: nested :: nestedNext.controls)
            (nested :: opts :: nestedNext.controls) :=
          .reorder (List.Perm.swap _ _ _)
        exact ((swapped.trans (.merge nested opts _)).under_eq action pipeline).symm
    | _ => exact ⟨rfl, fun _ _ => rfl⟩
  · rw [if_neg any]
    refine ⟨rfl, fun action pipeline => ?_⟩
    simp only [AdvancedHandlerControl.hasAny, Bool.or_eq_true, not_or, Bool.not_eq_true] at any
    obtain ⟨⟨releaseParams, allowCancellation⟩, isStreaming⟩ := any
    simp [LeanAdvancedHandlerAction.under, releaseParams, allowCancellation, isStreaming]

end AdvancedHandlerReply

/-- The action that the bridge gets from a reply. -/
def decodeReply (mapDeferred : Nat → Nat) (reply : AdvancedHandlerReply)
    : Except String LeanAdvancedHandlerAction :=
  decodeActionObject {} (toRawAdvancedHandlerReply mapDeferred reply).toObject

/-- The bridge decodes every reply with at most one pipeline, and rejects the others. -/
theorem decodeReply_eq (mapDeferred : Nat → Nat) (reply : AdvancedHandlerReply)
    (nulFree : ∀ message ∈ reply.message?, ∀ c ∈ message.toList, c.toNat ≠ 0)
    : decodeReply mapDeferred reply
      = if reply.pipelines.length ≤ 1 then
          .ok
            ((reply.leafAction mapDeferred).under reply.controls
              (reply.pipelines.head?.map
                (fun payload => (payload.toBytes, payload.capTableBytes))))
        else .error "Lean RPC advanced handler: setPipeline may only be specified once" := by
  have decoded := decodeAction_reply mapDeferred reply nulFree [] none
  simp only [AdvancedHandlerReply.pipelinePayloads, Option.toList_none, List.nil_append,
    List.length_map, List.head?_map] at decoded
  exact (decodeActionObject_toObject _ {}).trans decoded

-----------------------------------------------------------------------------------------
-- Payloads and tasks behind the action
-----------------------------------------------------------------------------------------

/-- Where the source throws an error with the failed part in front. -/
def expectChecked {α : Type*} (what : String) : Except String α → Except String α
  | .ok value => .ok value
  | .error e => .error (what ++ ": " ++ e)

/-- The payload that a handler is given for the bytes of a request. -/
def decodePayloadChecked (msgBytes capBytes : List UInt8) : Except String Payload := do
  let msg ← expectChecked "invalid RPC message" (readMessageChecked {} msgBytes)
  let capTable ← expectChecked "invalid RPC capability table" (CapTable.ofBytesChecked capBytes)
  return { msg, capTable }

/-- Bytes that carry a payload: both sides read its message and its capability ids in them, and a
handler is given it where the message stays in the limits of a reader.
-/
structure Payload.Carried (payload : Payload) (carried : List UInt8 × List UInt8) : Prop where
  message : readMessage carried.1 = payload.msg
  capIds : decodeCapTable carried.2 = .ok payload.capTable.caps
  decoded
    : payload.msg.segments.length ≤ ({} : ReaderOptions).maxSegments →
        messageWords payload.msg ≤ ({} : ReaderOptions).maxMessageWords →
          decodePayloadChecked carried.1 carried.2 = .ok payload

/-- A message that can be framed is carried without loss. -/
theorem Payload.carried {payload : Payload} (framable : payload.msg.Framable)
    : payload.Carried (payload.toBytes, payload.capTableBytes) := by
  have whole : payload.toBytes = writeMessage payload.msg ++ [] := (List.append_nil _).symm
  have capIds : decodeCapTable payload.capTableBytes = .ok payload.capTable.caps := by
    rw [Payload.capTableBytes, capTable_toBytes_eq, decodeCapTable_flatMap]
  refine ⟨?_, capIds, fun segments words => ?_⟩
  · show readMessage payload.toBytes = payload.msg
    rw [whole]
    exact readMessage_of_frames (framable.frames [])
  · have message := (framable.readMessageChecked {} []).mpr ⟨segments, words⟩
    have capTable
        : CapTable.ofBytesChecked payload.capTableBytes = .ok payload.capTable := by
      have whole : payload.capTableBytes.length % 4 = 0 := by
        rw [Payload.capTableBytes, capTable_toBytes_eq, capTable_fixedWidth.length_flatMap,
          Nat.mul_mod_right]
      rw [CapTable.ofBytesChecked, whole, CapTable.ofBytes, Payload.capTableBytes,
        capTable_toBytes_eq, capTable_fixedWidth.readEach_flatMap (Nat.le_refl _)]
      rfl
    rw [decodePayloadChecked, whole, message, capTable]
    rfl

/-- The bytes of the payload in an action. -/
def ActionKind.payload? : ActionKind → Option (List UInt8 × List UInt8)
  | .returnPayload payloadBytes payloadCaps => some (payloadBytes, payloadCaps)
  | .asyncCall _ _ _ payloadBytes payloadCaps => some (payloadBytes, payloadCaps)
  | .tailCall _ _ _ payloadBytes payloadCaps => some (payloadBytes, payloadCaps)
  | _ => none

def AdvancedHandlerResult.payload? : AdvancedHandlerResult → Option Payload
  | .respond payload => some payload
  | .asyncCall _ _ payload => some payload
  | .forwardCall _ _ payload _ => some payload
  | .tailCall _ _ payload => some payload
  | .control _ next => next.payload?
  | _ => none

def AdvancedHandlerReply.payload? : AdvancedHandlerReply → Option Payload
  | .now result => result.payload?
  | .control _ next => next.payload?
  | .pipeline _ next => next.payload?
  | _ => none

/-- The tasks of a deferred reply: the one that it waits for and the one that is cancelled. -/
def AdvancedHandlerReply.tasks? : AdvancedHandlerReply → Option (Nat × Nat)
  | .now _ => none
  | .deferred task => some (task, task)
  | .deferredWithCancel task cancelTask => some (task, cancelTask)
  | .control _ next => next.tasks?
  | .pipeline _ next => next.tasks?

/-- The action of a result carries its payload, by induction on the result. -/
theorem payload_leafAction_result (result : AdvancedHandlerResult)
    : result.leafAction.kind.payload?
      = result.payload?.map (fun payload => (payload.toBytes, payload.capTableBytes)) := by
  induction result with
  | control opts next ih => exact ih
  | _ => rfl

/-- The action carries the payload of the leaf, by induction on the reply. -/
theorem payload_leafAction (mapDeferred : Nat → Nat) (reply : AdvancedHandlerReply)
    : (reply.leafAction mapDeferred).kind.payload?
      = reply.payload?.map (fun payload => (payload.toBytes, payload.capTableBytes)) := by
  induction reply with
  | now result => exact payload_leafAction_result result
  | deferred task => rfl
  | deferredWithCancel task cancelTask => rfl
  | control opts next ih => exact ih
  | pipeline payload next ih => exact ih

/-- No result waits for a task, by induction on the result. -/
theorem not_awaitTask_leafAction_result (result : AdvancedHandlerResult)
    (waitTask cancelTask : Nat)
    : result.leafAction.kind ≠ .awaitTask waitTask cancelTask := by
  induction result with
  | control opts next ih => exact ih
  | _ => exact ActionKind.noConfusion

/-- The action waits for the converted task of the leaf, by induction on the reply. -/
theorem tasks_of_leafAction {mapDeferred : Nat → Nat} {reply : AdvancedHandlerReply}
    {waitTask cancelTask : Nat}
    (waits : (reply.leafAction mapDeferred).kind = .awaitTask waitTask cancelTask)
    : ∃ task, reply.tasks? = some (task, cancelTask) ∧ waitTask = mapDeferred task := by
  induction reply with
  | now result => exact absurd waits (not_awaitTask_leafAction_result result _ _)
  | deferred task =>
      obtain ⟨rfl, rfl⟩ := ActionKind.awaitTask.inj waits
      exact ⟨task, rfl, rfl⟩
  | deferredWithCancel task cancelTask =>
      obtain ⟨rfl, rfl⟩ := ActionKind.awaitTask.inj waits
      exact ⟨task, rfl, rfl⟩
  | control opts next ih => exact ih waits
  | pipeline payload next ih => exact ih waits

/-- A decoded action has the kind of the leaf and the pipeline of the reply. -/
theorem decodeReply_ok {mapDeferred : Nat → Nat} {reply : AdvancedHandlerReply}
    {action : LeanAdvancedHandlerAction}
    (nulFree : ∀ message ∈ reply.message?, ∀ c ∈ message.toList, c.toNat ≠ 0)
    (decoded : decodeReply mapDeferred reply = .ok action)
    : action.kind = (reply.leafAction mapDeferred).kind
      ∧ action.pipeline
        = reply.pipelines.head?.map
            (fun payload => (payload.toBytes, payload.capTableBytes)) := by
  rw [decodeReply_eq mapDeferred reply nulFree] at decoded
  split_ifs at decoded
  obtain rfl := Except.ok.inj decoded
  exact ⟨rfl, rfl⟩

/-- What the bridge decodes carries the payload and the pipeline of the reply without loss. -/
theorem carried_of_decodeReply {mapDeferred : Nat → Nat} {reply : AdvancedHandlerReply}
    {action : LeanAdvancedHandlerAction}
    (nulFree : ∀ message ∈ reply.message?, ∀ c ∈ message.toList, c.toNat ≠ 0)
    (decoded : decodeReply mapDeferred reply = .ok action)
    (framable : ∀ payload ∈ reply.payload?.toList ++ reply.pipelines, payload.msg.Framable)
    : Option.Rel Payload.Carried reply.payload? action.kind.payload?
      ∧ Option.Rel Payload.Carried reply.pipelines.head? action.pipeline := by
  have related {payload? : Option Payload}
      (framable : ∀ payload ∈ payload?, payload.msg.Framable)
      : Option.Rel Payload.Carried payload?
          (payload?.map (fun payload => (payload.toBytes, payload.capTableBytes))) := by
    cases payload? with
    | none => exact .none
    | some payload => exact .some (Payload.carried (framable payload rfl))
  obtain ⟨kind, pipeline⟩ := decodeReply_ok nulFree decoded
  rw [kind, payload_leafAction, pipeline]
  refine ⟨related (fun payload found => ?_), related (fun payload found => ?_)⟩
  · exact framable payload (List.mem_append_left _ (Option.mem_toList.mpr found))
  · exact framable payload (List.mem_append_right _ (List.mem_of_mem_head? found))

/-- The value of the converted task. -/
def mapDeferredAdvancedHandlerTask (result : Except Unit AdvancedHandlerResult)
    : Except Unit RawAdvancedHandlerResult :=
  result.map toRawAdvancedHandlerResult

/-- A deferred reply waits for the conversion of its own task, which ends as that one does: not
yet, in an error, or in the action of its result.
-/
theorem waits_of_decodeReply {mapDeferred : Nat → Nat} {reply : AdvancedHandlerReply}
    {action : LeanAdvancedHandlerAction}
    (nulFree : ∀ message ∈ reply.message?, ∀ c ∈ message.toList, c.toNat ≠ 0)
    (decoded : decodeReply mapDeferred reply = .ok action)
    {tasks : Nat → Option (Except Unit AdvancedHandlerResult)} {rawTasks : FinishedTasks}
    (converted
      : ∀ task, rawTasks (mapDeferred task) = (tasks task).map mapDeferredAdvancedHandlerTask)
    {waitTask cancelTask : Nat} (waits : action.kind = .awaitTask waitTask cancelTask)
    : ∃ task, reply.tasks? = some (task, cancelTask)
        ∧ (tasks task = none → waitLeanActionTask rawTasks waitTask = .ok none)
        ∧ (tasks task = some (.error ()) →
            waitLeanActionTask rawTasks waitTask
            = .error "Lean RPC advanced deferred handler task returned IO error")
        ∧ ∀ result, tasks task = some (.ok result) →
            (∀ message ∈ result.message?, ∀ c ∈ message.toList, c.toNat ≠ 0) →
              waitLeanActionTask rawTasks waitTask
              = .ok (some (result.leafAction.under result.controls none)) := by
  rw [(decodeReply_ok nulFree decoded).1] at waits
  obtain ⟨task, found, rfl⟩ := tasks_of_leafAction waits
  refine ⟨task, found, fun running => ?_, fun failed => ?_, fun result finished nulFree => ?_⟩
  · rw [waitLeanActionTask, converted, running]
    rfl
  · rw [waitLeanActionTask, converted, failed]
    rfl
  · have action : decodeAction {} (toRawAdvancedHandlerResult result)
        = .ok (result.leafAction.under result.controls none) :=
      decodeAction_result result nulFree [] none
    rw [waitLeanActionTask, converted, finished]
    show (decodeAction {} (toRawAdvancedHandlerResult result)).map some = _
    rw [action]
    rfl

-----------------------------------------------------------------------------------------
-- The meaning that is kept
-----------------------------------------------------------------------------------------

/-- The bridge decodes a reply to the action of its leaf under the flags of all control nodes
and the one pipeline, and control nodes in another order, merged or repeated decode the same.
-/
theorem decodeReply_keeps_meaning (mapDeferred : Nat → Nat) (reply : AdvancedHandlerReply)
    (nulFree : ∀ message ∈ reply.message?, ∀ c ∈ message.toList, c.toNat ≠ 0)
    : (reply.pipelines.length ≤ 1 →
        decodeReply mapDeferred reply
        = .ok
            ((reply.leafAction mapDeferred).under reply.controls
              (reply.pipelines.head?.map
                (fun payload => (payload.toBytes, payload.capTableBytes)))))
      ∧ (1 < reply.pipelines.length →
          decodeReply mapDeferred reply
          = .error "Lean RPC advanced handler: setPipeline may only be specified once")
      ∧ (∀ other : AdvancedHandlerReply,
          other.plain = reply.plain → Rearranged reply.controls other.controls →
          decodeReply mapDeferred other = decodeReply mapDeferred reply)
      ∧ ∀ opts : AdvancedHandlerControl,
          decodeReply mapDeferred (.withControl opts reply)
          = decodeReply mapDeferred (.control opts reply) := by
  have decoded := decodeReply_eq mapDeferred reply nulFree
  have same (other : AdvancedHandlerReply) (plain : other.plain = reply.plain)
      : other.leafAction mapDeferred = reply.leafAction mapDeferred
        ∧ other.pipelines = reply.pipelines
        ∧ other.message? = reply.message? := by
    obtain ⟨otherAction, otherPipelines, otherMessage⟩ := other.plain_spec mapDeferred
    obtain ⟨action, pipelines, message⟩ := reply.plain_spec mapDeferred
    rw [plain] at otherAction otherPipelines otherMessage
    exact
      ⟨otherAction.symm.trans action, otherPipelines.symm.trans pipelines,
        otherMessage.symm.trans message⟩
  refine ⟨fun single => ?_, fun several => ?_, fun other plain rearranged => ?_, fun opts => ?_⟩
  · rw [decoded, if_pos single]
  · rw [decoded, if_neg (Nat.not_le.mpr several)]
  · obtain ⟨action, pipelines, message⟩ := same other plain
    rw [decodeReply_eq mapDeferred other (message ▸ nulFree), decoded, action, pipelines,
      rearranged.under_eq]
  · obtain ⟨plain, flags⟩ := reply.withControl_spec opts
    obtain ⟨action, pipelines, message⟩ := same _ plain
    rw [decodeReply_eq mapDeferred _ (message ▸ nulFree),
      decodeReply_eq mapDeferred (.control opts reply) nulFree, action, pipelines, flags]
    rfl

/-- Witness: a remote exception under two control nodes, one of them above a pipeline. -/
theorem decodeReply_keeps_meaning_exception
    : decodeReply id
        (.control { releaseParams := true }
          (.pipeline ⟨⟨[]⟩, ⟨[7]⟩⟩
            (.now (.control { isStreaming := true } (.throwRemoteWithType .overloaded "no" [1])))))
      = .ok
          { kind := .throwRemote "no" [1], releaseParams := true, isStreaming := true
            pipeline := some ([], [7, 0, 0, 0]), remoteExceptionType := .overloaded } := by
  let reply : AdvancedHandlerReply :=
    .control { releaseParams := true }
      (.pipeline ⟨⟨[]⟩, ⟨[7]⟩⟩
        (.now (.control { isStreaming := true } (.throwRemoteWithType .overloaded "no" [1]))))
  have nulFree : ∀ message ∈ reply.message?, ∀ c ∈ message.toList, c.toNat ≠ 0 := by
    intro message found c member
    obtain rfl : "no" = message := Option.some.inj found
    have letters : c = 'n' ∨ c = 'o' := by simpa using member
    rcases letters with rfl | rfl
    · decide
    · decide
  exact (decodeReply_keeps_meaning id reply nulFree).1 (Nat.le_refl 1)

end Capnp.Rpc
