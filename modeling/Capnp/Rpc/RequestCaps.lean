import Capnp.Rpc.Dispatch
import Mathlib.Data.List.Find

/-! The targets that an incoming call adds for its request capabilities, over the life of
the call. The call is followed from its arrival to its end while other operations act on
the same target table at any point.
-/

namespace Capnp.Rpc

variable {Cap : Type*}

-----------------------------------------------------------------------------------------
-- One call among arbitrary other operations
-----------------------------------------------------------------------------------------

/-- The three servers for Lean handlers. -/
inductive ServerKind where
  | plain
  | tailCallHandler
  | advanced
deriving DecidableEq

/-- How far the followed call is. A deferred or forwarding call whose action did not allow
cancellation (`cancelable = false`) runs on when its peer cancels it.
-/
inductive CallPhase where
  | idle
  | handling (server : ServerKind) (requestCapIds : List UInt32)
  | deferred (cleanup : RequestCapCleanupState) (early : EarlyFlags) (nested cancelable : Bool)
  | forwarding (cleanup : RequestCapCleanupState) (cancelable : Bool)
  | finished (responseCaps : List UInt32)

/-- `outstanding` lists the ids that the call's request added and that have stayed in the
target table since.
-/
structure CallState (Cap : Type*) where
  runtime : RuntimeTargets Cap := {}
  phase : CallPhase := .idle
  outstanding : List UInt32 := []

/-- The steps of a call, and what others do to the targets meanwhile. -/
inductive CallLabel (Cap : Type*) where
  | environment (op : TargetOp Cap)
  | arrives (server : ServerKind) (hooks : List (Option Cap))
  | handlerFails
  | handlerReturns (response responseCaps : List UInt8)
  | handlerForwards (forwardTargetId : UInt32)
  | handlerActs (tasks : FinishedTasks) (action : RawAdvancedHandlerResult)
  | taskEnds (tasks : FinishedTasks) (outcome : Except Unit RawAdvancedHandlerResult)
  | forwardEnds (outcome : Except String Unit)
  | peerCancels

/-- The phase after a dispatch. A thrown dispatch has no response. -/
def phaseAfter (cleanup : RequestCapCleanupState) (nested : Bool) (cancelable : Option Bool)
    : Except Thrown DispatchCallResult → CallPhase
  | .error _ => .finished []
  | .ok result =>
      let cancelable := cancelable.getD result.allowCancellation
      match result.completion with
      | .ready responseCaps => .finished responseCaps
      | .forwarding => .forwarding cleanup cancelable
      | .deferred =>
          .deferred cleanup ⟨result.allowCancellation, result.isStreaming⟩ nested cancelable

/-- The targets and the phase after one step of the call; `none` when the step is not
possible in this phase.
-/
def CallLabel.run (library : MessageLibrary) (state : CallState Cap)
    : CallLabel Cap → Option (RuntimeTargets Cap × CallPhase)
  | .environment op =>
      (op.run state.runtime).map (fun (_, runtime) => (runtime, state.phase))
  | .arrives server hooks =>
      match state.phase with
      | .idle =>
          Option.map (fun (requestCapIds, runtime) => (runtime, .handling server requestCapIds)) <|
            encodeRequestForLean state.runtime hooks
      | _ => none
  | .handlerFails =>
      match state.phase with
      | .handling .plain ids =>
          let (answer, runtime) :=
            dispatchCapabilityServer library state.runtime ids (.error ())
          some (runtime, phaseAfter ⟨ids, true⟩ false none answer)
      | .handling .tailCallHandler ids =>
          let (answer, runtime) := dispatchTailCallHandlerServer state.runtime ids (.error ())
          some (runtime, phaseAfter ⟨ids, true⟩ false none answer)
      | .handling .advanced ids =>
          let (answer, call) :=
            dispatchAdvancedServer library (fun _ => none) ⟨state.runtime, ⟨ids, false⟩⟩
              (.error ())
          some (call.runtime, phaseAfter call.cleanup false none answer)
      | _ => none
  | .handlerReturns response responseCaps =>
      match state.phase with
      | .handling .plain ids =>
          let (answer, runtime) :=
            dispatchCapabilityServer library state.runtime ids (.ok (response, responseCaps))
          some (runtime, phaseAfter ⟨ids, true⟩ false none answer)
      | _ => none
  | .handlerForwards forwardTargetId =>
      match state.phase with
      | .handling .tailCallHandler ids =>
          let (answer, runtime) :=
            dispatchTailCallHandlerServer state.runtime ids (.ok forwardTargetId)
          some (runtime, phaseAfter ⟨ids, true⟩ false none answer)
      | _ => none
  | .handlerActs tasks action =>
      match state.phase with
      | .handling .advanced ids =>
          let (answer, call) :=
            dispatchAdvancedServer library tasks ⟨state.runtime, ⟨ids, false⟩⟩ (.ok action)
          some (call.runtime, phaseAfter call.cleanup false none answer)
      | _ => none
  | .taskEnds tasks outcome =>
      match state.phase with
      | .deferred cleanup early nested cancelable =>
          let (answer, call) :=
            dispatchDeferred library tasks early nested ⟨state.runtime, cleanup⟩ outcome
          some (call.runtime, phaseAfter call.cleanup true (some cancelable) answer)
      | _ => none
  | .forwardEnds outcome =>
      match state.phase with
      | .forwarding cleanup _ =>
          match outcome with
          | .ok _ => some (state.runtime, .finished [])
          | .error _ =>
              -- The error handler around a deferred call cleans up; elsewhere it is done.
              let call := cleanupAll ⟨state.runtime, cleanup⟩
              some (call.runtime, .finished [])
      | _ => none
  | .peerCancels =>
      match state.phase with
      | .deferred _ _ _ true | .forwarding _ true => some (state.runtime, .finished [])
      | .deferred _ _ _ false | .forwarding _ false => some (state.runtime, state.phase)
      | _ => none

/-- One step with its effect on the outstanding ids: arriving sets them, and an id stays
outstanding as long as it stays in the table.
-/
def CallState.next (library : MessageLibrary) (state : CallState Cap) (label : CallLabel Cap)
    : Option (CallState Cap) :=
  (label.run library state).map (fun (runtime, phase) =>
    { runtime := runtime
      phase := phase
      outstanding :=
        match label, phase with
        | .arrives _ _, .handling _ requestCapIds => requestCapIds
        | _, _ => state.outstanding.filter (fun id => id ∈ runtime.targets) })

def callSystem (Cap : Type*) (library : MessageLibrary)
    : Transition.System (CallState Cap) (CallLabel Cap) :=
  .ofFunction {} (fun state label => state.next library label)

/-- A finished call left nothing in the target table but what its response names. -/
def CallState.NoLeak (state : CallState Cap) : Prop :=
  match state.phase with
  | .finished responseCaps => state.outstanding ⊆ responseCaps
  | _ => True

-----------------------------------------------------------------------------------------
-- The steps that release the request capabilities
-----------------------------------------------------------------------------------------

/-- An id other than null is twice in a capability table. -/
def repeatsCap (capIds : List UInt32) : Bool :=
  !decide (capIds.filter (fun capId => capId != 0)).Nodup

/-- The targets kept for a non-streaming response that then cannot be set. -/
def keptUndelivered (library : MessageLibrary) (runtime : RuntimeTargets Cap)
    (action : LeanAdvancedHandlerAction)
    : List UInt32 :=
  match misusedOption action, action.kind with
  | none, .returnPayload payloadBytes payloadCaps =>
      match decodeCapTable payloadCaps with
      | .error _ => []
      | .ok responseCapIds =>
          match withDecodedPayloadAndCapTable library runtime payloadBytes responseCapIds "" with
          | .ok _ => []
          | .error _ =>
              if action.isStreaming || repeatsCap responseCapIds then []
              else responseCapIds.filter (fun capId => capId != 0)
  | _, _ => []

/-- The action has no pipeline, or one that can be set. -/
def pipelineUsable (library : MessageLibrary) (runtime : RuntimeTargets Cap)
    (action : LeanAdvancedHandlerAction)
    : Bool :=
  action.pipeline.all (fun (pipelineBytes, pipelineCaps) =>
    (setContextPipelineFromPayload library runtime pipelineBytes pipelineCaps
      "unknown RPC pipeline capability id: ").isOk)

/-- The action is in order, but its payload, its capability table or the task that it waits
for makes the dispatch throw before any clean-up.
-/
def throwsBeforeCleanup (library : MessageLibrary) (tasks : FinishedTasks)
    (runtime : RuntimeTargets Cap) (action : LeanAdvancedHandlerAction)
    : Bool :=
  match misusedOption action, action.kind with
  | none, .returnPayload _ payloadCaps =>
      match decodeCapTable payloadCaps with
      | .error _ => true
      | .ok responseCapIds => !action.isStreaming && repeatsCap responseCapIds
  | none, .asyncCall target _ _ payloadBytes payloadCaps =>
      decide (target ∈ runtime.targets)
        && !(setForwardPayload library runtime payloadBytes payloadCaps).isOk
  | none, .tailCall target _ _ payloadBytes payloadCaps =>
      decide (target ∈ runtime.targets)
        && !(setForwardPayload library runtime payloadBytes payloadCaps).isOk
  | none, .awaitTask waitTask _ =>
      pipelineUsable library runtime action && !(waitLeanActionTask tasks waitTask).isOk
  | _, _ => false

/-- The dispatch of an action leads to no leak. Around the synchronous dispatch and around a
nested deferral (`wrapped`), what is thrown before the clean-up is cleaned up after it.
-/
def actionReleases (library : MessageLibrary) (tasks : FinishedTasks) (state : CallState Cap)
    (wrapped : Bool) (action : LeanAdvancedHandlerAction)
    : Bool :=
  (keptUndelivered library state.runtime action).all (fun id => !state.outstanding.contains id)
    && (wrapped || !throwsBeforeCleanup library tasks state.runtime action
      || state.outstanding.isEmpty)

/-- The condition on a step of the call. Id 0 is allocated only after the counter wraps
around; two of the servers skip it when they clean up.
-/
def CallLabel.releases (library : MessageLibrary) (state : CallState Cap)
    : CallLabel Cap → Bool
  | .handlerFails =>
      match state.phase with
      | .handling .advanced _ => true
      | _ => !state.outstanding.contains 0
  | .handlerForwards forwardTargetId =>
      !state.outstanding.contains 0 && !state.outstanding.contains forwardTargetId
  | .handlerActs tasks actionObj =>
      match decodeAction {} actionObj with
      | .error _ => true
      | .ok action => actionReleases library tasks state true action
  | .taskEnds tasks outcome =>
      match state.phase, finishedTaskAction outcome with
      | .deferred _ early nested _, .ok nextAction =>
          (lateOption early nextAction).isSome
            || actionReleases library tasks state nested nextAction
      | _, _ => true
  | .peerCancels =>
      match state.phase with
      | .deferred _ _ _ true => state.outstanding.isEmpty
      | _ => true
  | _ => true

-----------------------------------------------------------------------------------------
-- What each exit of a dispatch keeps
-----------------------------------------------------------------------------------------

/-- Of the call's request capabilities only `allowed` ones are still targets. -/
def KeepsOnly (requestCapIds : List UInt32) (runtime : RuntimeTargets Cap)
    (allowed : List UInt32)
    : Prop :=
  ∀ id ∈ requestCapIds, id ∈ runtime.targets → id ∈ allowed

/-- Exactly the dropped ids are gone. -/
theorem mem_dropRequestCaps {runtime : RuntimeTargets Cap} {dropped : List UInt32}
    {id : UInt32}
    : id ∈ (dropRequestCaps runtime dropped).targets ↔ id ∈ runtime.targets ∧ id ∉ dropped := by
  induction dropped generalizing runtime with
  | nil => simp [dropRequestCaps]
  | cons capId rest ih =>
      have dropHead : dropRequestCaps runtime (capId :: rest)
          = dropRequestCaps (dropTargetIfPresent runtime capId).2 rest := rfl
      rw [dropHead, ih]
      simp only [dropTargetIfPresent, AList.mem_erase, List.mem_cons, not_or]
      tauto

/-- Dropping all of them keeps none. -/
theorem keepsOnly_dropRequestCaps (runtime : RuntimeTargets Cap) (requestCapIds : List UInt32)
    : KeepsOnly requestCapIds (dropRequestCaps runtime requestCapIds) [] :=
  fun _ member kept => absurd member (mem_dropRequestCaps.mp kept).2

/-- When it does not throw, it keeps of the request capabilities the retained ones. -/
theorem mem_dropRequestCapsExcept {runtime after : RuntimeTargets Cap}
    {requestCapIds retainedCaps : List UInt32}
    (dropped : dropRequestCapsExcept runtime requestCapIds retainedCaps = (.ok (), after))
    {id : UInt32}
    : id ∈ after.targets
      ↔ id ∈ runtime.targets ∧ (id ∈ requestCapIds → id ∈ retainedCaps ∧ id ≠ 0) := by
  cases retainedCaps with
  | nil =>
      obtain ⟨-, rfl⟩ := Prod.mk.inj dropped
      simp [mem_dropRequestCaps]
  | cons capId rest =>
      simp only [dropRequestCapsExcept, List.isEmpty_cons, Bool.false_eq_true, if_false] at dropped
      cases set : retainedSet (capId :: rest) with
      | error message => simp [set] at dropped
      | ok retained =>
          simp only [set] at dropped
          obtain ⟨-, rfl⟩ := Prod.mk.inj dropped
          rw [mem_dropRequestCaps, notRetained, List.mem_filter, Bool.not_eq_true',
            List.contains_eq_mem, decide_eq_false_iff_not, mem_retainedSet set]
          tauto

/-- It throws exactly when an id is repeated, and then drops nothing. -/
theorem dropRequestCapsExcept_cases (runtime : RuntimeTargets Cap)
    (requestCapIds retainedCaps : List UInt32)
    : (repeatsCap retainedCaps = false
        ∧ ∃ after, dropRequestCapsExcept runtime requestCapIds retainedCaps = (.ok (), after))
      ∨ (repeatsCap retainedCaps = true
        ∧ ∃ message,
            dropRequestCapsExcept runtime requestCapIds retainedCaps
            = (.error message, runtime)) := by
  have distinct := isOk_retainedSet retainedCaps
  cases retainedCaps with
  | nil => exact .inl ⟨by simp [repeatsCap], _, rfl⟩
  | cons capId rest =>
      simp only [dropRequestCapsExcept, List.isEmpty_cons, Bool.false_eq_true, if_false]
      cases set : retainedSet (capId :: rest) with
      | error message =>
          rw [set] at distinct
          refine .inr ⟨?_, message, rfl⟩
          simpa [repeatsCap, Except.isOk, Except.toBool] using distinct
      | ok retained =>
          rw [set] at distinct
          refine .inl ⟨?_, _, rfl⟩
          simpa [repeatsCap, Except.isOk, Except.toBool] using distinct

/-- Dropping all but one keeps that one. -/
theorem keepsOnly_dropRequestCapsExceptOne {runtime : RuntimeTargets Cap}
    {requestCapIds : List UInt32} {retainedCapId : UInt32}
    : KeepsOnly requestCapIds (dropRequestCapsExceptOne runtime requestCapIds retainedCapId)
        [0, retainedCapId] := by
  intro id member kept
  have spared := (mem_dropRequestCaps.mp kept).2
  simp only [List.mem_filter, member, true_and, Bool.not_eq_true', Bool.or_eq_false_iff,
    beq_eq_false_iff_ne, not_and_or, not_not] at spared
  simpa using spared

/-- A first clean-up throws exactly when an id is repeated, and then it does nothing. -/
theorem cleanup_cases {call : OpenCall Cap} (fresh : call.cleanup.done = false)
    (retainedCaps : List UInt32)
    : (repeatsCap retainedCaps = false
        ∧ ∃ after, cleanupRequestCaps call retainedCaps = (.ok (), after))
      ∨ (repeatsCap retainedCaps = true
        ∧ ∃ message, cleanupRequestCaps call retainedCaps = (.error message, call)) := by
  simp only [cleanupRequestCaps, fresh, Bool.false_eq_true, if_false]
  rcases dropRequestCapsExcept_cases call.runtime call.cleanup.requestCapIds retainedCaps with
    ⟨distinct, after, dropped⟩ | ⟨repeated, message, thrown⟩
  · rw [dropped]
    exact .inl ⟨distinct, _, rfl⟩
  · rw [thrown]
    exact .inr ⟨repeated, message, rfl⟩

/-- A first clean-up keeps the retained ids only, and never id 0. -/
theorem mem_cleanup {call after : OpenCall Cap} (fresh : call.cleanup.done = false)
    {retainedCaps : List UInt32} (cleaned : cleanupRequestCaps call retainedCaps = (.ok (), after))
    {id : UInt32}
    : id ∈ after.runtime.targets
      ↔ id ∈ call.runtime.targets
        ∧ (id ∈ call.cleanup.requestCapIds → id ∈ retainedCaps ∧ id ≠ 0) := by
  simp only [cleanupRequestCaps, fresh, Bool.false_eq_true, if_false] at cleaned
  rcases dropped : dropRequestCapsExcept call.runtime call.cleanup.requestCapIds retainedCaps
    with ⟨_ | _, left⟩
  · simp [dropped] at cleaned
  · rw [dropped] at cleaned
    obtain ⟨-, rfl⟩ := Prod.mk.inj cleaned
    exact mem_dropRequestCapsExcept dropped

/-- A clean-up that does not throw keeps the retained ids only. -/
theorem keepsOnly_cleanup {call after : OpenCall Cap} (fresh : call.cleanup.done = false)
    {retainedCaps : List UInt32} (cleaned : cleanupRequestCaps call retainedCaps = (.ok (), after))
    : KeepsOnly call.cleanup.requestCapIds after.runtime
        (retainedCaps.filter (fun capId => capId != 0)) := by
  intro id member kept
  have retained := ((mem_cleanup fresh cleaned).mp kept).2 member
  simpa using retained

/-- After a clean-up that does not throw, the clean-up is done. -/
theorem cleanup_done {call after : OpenCall Cap} {retainedCaps : List UInt32}
    (cleaned : cleanupRequestCaps call retainedCaps = (.ok (), after))
    : after.cleanup.done = true := by
  unfold cleanupRequestCaps at cleaned
  split at cleaned
  · rename_i done
    obtain ⟨-, rfl⟩ := Prod.mk.inj cleaned
    exact done
  · split at cleaned
    · simp at cleaned
    · obtain ⟨-, rfl⟩ := Prod.mk.inj cleaned
      rfl

/-- A clean-up that retains nothing does not throw. -/
theorem cleanupAll_eq (call : OpenCall Cap)
    : cleanupRequestCaps call [] = (.ok (), cleanupAll call) :=
  Prod.ext (fst_cleanupRequestCaps_nil call) rfl

/-- A clean-up that retains nothing leaves none of the call's request capabilities. -/
theorem keepsOnly_cleanupAll {call : OpenCall Cap} (fresh : call.cleanup.done = false)
    : KeepsOnly call.cleanup.requestCapIds (cleanupAll call).runtime [] :=
  keepsOnly_cleanup fresh (cleanupAll_eq call)

/-- A second clean-up does nothing. -/
theorem cleanupAll_of_done {call : OpenCall Cap} (done : call.cleanup.done = true)
    : cleanupAll call = call := by
  simp only [cleanupAll, cleanupRequestCaps, done, if_true]

/-- More ids may be kept. -/
theorem KeepsOnly.mono {requestCapIds fewer more : List UInt32} {runtime : RuntimeTargets Cap}
    (keeps : KeepsOnly requestCapIds runtime fewer) (included : fewer ⊆ more)
    : KeepsOnly requestCapIds runtime more :=
  fun id member kept => included (keeps id member kept)

/-- Whether a response can be set does not depend on a clean-up that retains its ids. -/
theorem withDecodedPayload_cleanup (library : MessageLibrary) {call after : OpenCall Cap}
    (fresh : call.cleanup.done = false) (payloadBytes : List UInt8) {capIds : List UInt32}
    (cleaned : cleanupRequestCaps call capIds = (.ok (), after))
    (unknownCapErrorPrefix : String)
    : (withDecodedPayloadAndCapTable library after.runtime payloadBytes capIds
        unknownCapErrorPrefix).isOk
      = (withDecodedPayloadAndCapTable library call.runtime payloadBytes capIds "").isOk := by
  have sameUnknown : firstUnknownCap after.runtime capIds
      = firstUnknownCap call.runtime capIds := by
    refine List.find?_congr (fun capId member => ?_)
    by_cases null : capId = 0
    · simp [null]
    · have same : capId ∈ after.runtime.targets ↔ capId ∈ call.runtime.targets := by
        rw [mem_cleanup fresh cleaned]
        exact and_iff_left (fun _ => ⟨member, null⟩)
      simp only [same]
  unfold withDecodedPayloadAndCapTable
  rw [sameUnknown]
  cases library.readMessage payloadBytes with
  | error message => rfl
  | ok _ => cases firstUnknownCap call.runtime capIds <;> rfl

/-- What an exit of an advanced dispatch leaves of the call's request capabilities. -/
def ExitKeeps (library : MessageLibrary) (tasks : FinishedTasks)
    (action : LeanAdvancedHandlerAction) (call : OpenCall Cap)
    : Except Thrown DispatchCallResult × OpenCall Cap → Prop
  | (.ok result, after) =>
      match result.completion with
      | .ready responseCaps => KeepsOnly call.cleanup.requestCapIds after.runtime responseCaps
      | .forwarding => KeepsOnly call.cleanup.requestCapIds after.runtime []
      | .deferred => after = call
  | (.error _, after) =>
      (after.cleanup.done = true
        ∧ KeepsOnly call.cleanup.requestCapIds after.runtime
            (keptUndelivered library call.runtime action))
      ∨ (throwsBeforeCleanup library tasks call.runtime action = true ∧ after = call)

section Exits

variable {library : MessageLibrary} {tasks : FinishedTasks}
  {action : LeanAdvancedHandlerAction} {call : OpenCall Cap}

/-- Throwing right after a full clean-up. -/
theorem exitKeeps_cleaned (fresh : call.cleanup.done = false) (thrown : Thrown)
    : ExitKeeps library tasks action call (.error thrown, cleanupAll call) :=
  .inl ⟨cleanup_done (cleanupAll_eq call), (keepsOnly_cleanupAll fresh).mono (by simp)⟩

/-- Throwing before any clean-up. -/
theorem exitKeeps_uncleaned
    (throws : throwsBeforeCleanup library tasks call.runtime action = true) (thrown : Thrown)
    : ExitKeeps library tasks action call (.error thrown, call) :=
  .inr ⟨throws, rfl⟩

/-- A returned payload: the capability table may not decode, or an id be repeated in it,
before the clean-up; after the clean-up only setting the response can fail.
-/
theorem returnPayload_exitKeeps (fresh : call.cleanup.done = false)
    (proper : misusedOption action = none) {payloadBytes payloadCaps : List UInt8}
    (kind : action.kind = .returnPayload payloadBytes payloadCaps)
    : ExitKeeps library tasks action call (dispatchActionKind library tasks action call) := by
  cases decoded : decodeCapTable payloadCaps with
  | error message =>
      simp only [dispatchActionKind, kind, decoded]
      refine exitKeeps_uncleaned ?_ _
      simp [throwsBeforeCleanup, proper, kind, decoded]
  | ok responseCapIds =>
      simp only [dispatchActionKind, kind, decoded]
      split
      · intro id member kept
        exact keepsOnly_cleanupAll fresh id member (mem_dropRequestCaps.mp kept).1
      rename_i notStreaming
      rcases cleanup_cases fresh responseCapIds with
        ⟨distinct, after, cleaned⟩ | ⟨repeated, message, thrown⟩
      · rw [cleaned]
        have retained := keepsOnly_cleanup fresh cleaned
        have delivered := withDecodedPayload_cleanup library fresh payloadBytes cleaned
          "unknown RPC response capability id from Lean advanced handler: "
        dsimp only
        split <;> rename_i answer set
        · refine Or.inl ⟨cleanup_done cleaned, retained.mono ?_⟩
          rw [set] at delivered
          cases before : withDecodedPayloadAndCapTable library call.runtime payloadBytes
            responseCapIds "" with
          | error _ =>
              simp only [keptUndelivered, proper, kind, decoded, before, notStreaming, distinct]
              exact fun _ => id
          | ok _ => simp [before, Except.isOk, Except.toBool] at delivered
        · exact retained.mono List.filter_sublist.subset
      · rw [thrown]
        refine exitKeeps_uncleaned ?_ _
        simp [throwsBeforeCleanup, proper, kind, decoded, notStreaming, repeated]

/-- Each kind of action, when its options are in order and its pipeline can be set. -/
theorem dispatchActionKind_exitKeeps (fresh : call.cleanup.done = false)
    (proper : misusedOption action = none)
    (usable : pipelineUsable library call.runtime action = true)
    : ExitKeeps library tasks action call (dispatchActionKind library tasks action call) := by
  have cleaned (thrown : Thrown)
      : ExitKeeps library tasks action call (.error thrown, cleanupAll call) :=
    exitKeeps_cleaned fresh thrown
  have emptied := keepsOnly_cleanupAll fresh
  cases kind : action.kind with
  | returnPayload payloadBytes payloadCaps => exact returnPayload_exitKeeps fresh proper kind
  | asyncCall target interfaceId methodId payloadBytes payloadCaps =>
      simp only [dispatchActionKind, kind]
      split
      · rename_i present
        cases forwarded : setForwardPayload library call.runtime payloadBytes payloadCaps with
        | error message =>
            refine exitKeeps_uncleaned ?_ _
            simp [throwsBeforeCleanup, proper, kind, forwarded, present, Except.isOk,
              Except.toBool]
        | ok _ =>
            dsimp only
            split
            · exact cleaned _
            · exact emptied
      · exact cleaned _
  | tailCall target interfaceId methodId payloadBytes payloadCaps =>
      simp only [dispatchActionKind, kind]
      split
      · rename_i present
        cases forwarded : setForwardPayload library call.runtime payloadBytes payloadCaps with
        | error message =>
            refine exitKeeps_uncleaned ?_ _
            simp [throwsBeforeCleanup, proper, kind, forwarded, present, Except.isOk,
              Except.toBool]
        | ok _ => exact emptied
      · exact cleaned _
  | throwRemote message detailBytes =>
      simp only [dispatchActionKind, kind]
      exact cleaned _
  | awaitTask waitTask cancelTask =>
      simp only [dispatchActionKind, kind]
      cases waited : waitLeanActionTask tasks waitTask with
      | error message =>
          refine exitKeeps_uncleaned ?_ _
          simp [throwsBeforeCleanup, proper, kind, usable, waited, Except.isOk, Except.toBool]
      | ok _ => rfl

/-- The checks before the action's kind matters clean up when they throw. -/
theorem dispatchDecodedAction_exitKeeps (fresh : call.cleanup.done = false)
    : ExitKeeps library tasks action call (dispatchDecodedAction library tasks action call) := by
  unfold dispatchDecodedAction
  cases misused : misusedOption action with
  | some message => exact exitKeeps_cleaned fresh _
  | none =>
      dsimp only
      cases pipeline : action.pipeline with
      | none =>
          exact dispatchActionKind_exitKeeps fresh misused (by simp [pipelineUsable, pipeline])
      | some payload =>
          obtain ⟨pipelineBytes, pipelineCaps⟩ := payload
          dsimp only
          cases set : setContextPipelineFromPayload library call.runtime pipelineBytes
            pipelineCaps "unknown RPC pipeline capability id: " with
          | error message => exact exitKeeps_cleaned fresh _
          | ok _ =>
              refine dispatchActionKind_exitKeeps fresh misused ?_
              simp [pipelineUsable, pipeline, set, Except.isOk, Except.toBool]

end Exits

-----------------------------------------------------------------------------------------
-- Each step accounts for the outstanding ids
-----------------------------------------------------------------------------------------

/-- The ids of a list that are still targets. -/
def stillTargets (outstanding : List UInt32) (runtime : RuntimeTargets Cap) : List UInt32 :=
  outstanding.filter (fun id => id ∈ runtime.targets)

/-- What is still a target was allowed to stay. -/
theorem KeepsOnly.stillTargets_subset {requestCapIds allowed outstanding : List UInt32}
    {runtime : RuntimeTargets Cap} (keeps : KeepsOnly requestCapIds runtime allowed)
    (included : outstanding ⊆ requestCapIds)
    : stillTargets outstanding runtime ⊆ allowed := by
  intro id member
  obtain ⟨old, present⟩ := List.mem_filter.mp member
  exact keeps id (included old) (of_decide_eq_true present)

/-- A clean-up that retains nothing leaves none of the outstanding ids. -/
theorem stillTargets_cleanup {call : OpenCall Cap} {outstanding : List UInt32}
    (fresh : call.cleanup.done = false) (included : outstanding ⊆ call.cleanup.requestCapIds)
    : stillTargets outstanding (cleanupAll call).runtime ⊆ [] :=
  (keepsOnly_cleanupAll fresh).stillTargets_subset included

/-- Every outstanding id is one that the call's phase still answers for. -/
def CallPhase.Covers (outstanding : List UInt32) : CallPhase → Prop
  | .idle => outstanding ⊆ []
  | .handling _ requestCapIds => outstanding ⊆ requestCapIds
  | .deferred cleanup _ _ _ => outstanding ⊆ cleanup.requestCapIds ∧ cleanup.done = false
  | .forwarding _ _ => outstanding ⊆ []
  | .finished responseCaps => outstanding ⊆ responseCaps

/-- A phase that covers some ids covers fewer. -/
theorem CallPhase.Covers.mono {fewer more : List UInt32} {phase : CallPhase}
    (covers : phase.Covers more) (included : fewer ⊆ more)
    : phase.Covers fewer := by
  cases phase with
  | deferred => exact ⟨List.Subset.trans included covers.1, covers.2⟩
  | idle | handling | forwarding | finished => exact List.Subset.trans included covers

/-- A dispatch that does not throw is covered by the phase it leads to. -/
theorem ExitKeeps.covers_ok {library : MessageLibrary} {tasks : FinishedTasks}
    {action : LeanAdvancedHandlerAction} {call after : OpenCall Cap}
    {result : DispatchCallResult}
    (exit : ExitKeeps library tasks action call (.ok result, after)) {outstanding : List UInt32}
    (included : outstanding ⊆ call.cleanup.requestCapIds)
    (fresh : call.cleanup.done = false) (nested : Bool) (cancelable : Option Bool)
    : (phaseAfter after.cleanup nested cancelable (.ok result)).Covers
        (stillTargets outstanding after.runtime) := by
  obtain ⟨completion, isStreaming, allowCancellation⟩ := result
  cases completion with
  | ready responseCaps => exact exit.stillTargets_subset included
  | forwarding => exact exit.stillTargets_subset included
  | deferred =>
      obtain rfl : after = call := exit
      exact ⟨List.Subset.trans List.filter_sublist.subset included, fresh⟩

/-- A dispatch that throws keeps nothing once it is wrapped in the clean-up, and without the
wrapping when it did not throw too early.
-/
theorem ExitKeeps.released_error {library : MessageLibrary} {tasks : FinishedTasks}
    {action : LeanAdvancedHandlerAction} {call after : OpenCall Cap} {thrown : Thrown}
    (exit : ExitKeeps library tasks action call (.error thrown, after))
    {outstanding : List UInt32}
    (included : outstanding ⊆ call.cleanup.requestCapIds)
    (fresh : call.cleanup.done = false)
    (spared : ∀ id ∈ keptUndelivered library call.runtime action, id ∉ outstanding)
    : stillTargets outstanding (cleanupAll after).runtime ⊆ []
      ∧ ((throwsBeforeCleanup library tasks call.runtime action = true → outstanding = []) →
          stillTargets outstanding after.runtime ⊆ []) := by
  rcases exit with ⟨done, keeps⟩ | ⟨throws, rfl⟩
  · have released : stillTargets outstanding after.runtime ⊆ [] := by
      intro id member
      have kept := keeps.stillTargets_subset included member
      exact absurd (List.mem_filter.mp member).1 (spared id kept)
    rw [cleanupAll_of_done done]
    exact ⟨released, fun _ => released⟩
  · refine ⟨stillTargets_cleanup fresh included, ?_⟩
    intro empty
    rw [empty throws]
    exact List.Subset.refl []

/-- What the condition on a dispatch asks of its action. -/
structure ActionReleases (library : MessageLibrary) (tasks : FinishedTasks)
    (runtime : RuntimeTargets Cap) (outstanding : List UInt32) (wrapped : Bool)
    (action : LeanAdvancedHandlerAction)
    : Prop where
  spared : ∀ id ∈ keptUndelivered library runtime action, id ∉ outstanding
  early
    : wrapped = false → throwsBeforeCleanup library tasks runtime action = true →
        outstanding = []

/-- The condition as it is evaluated. -/
theorem actionReleases_spec {library : MessageLibrary} {tasks : FinishedTasks}
    {state : CallState Cap} {wrapped : Bool} {action : LeanAdvancedHandlerAction}
    (releases : actionReleases library tasks state wrapped action = true)
    : ActionReleases library tasks state.runtime state.outstanding wrapped action := by
  simp only [actionReleases, Bool.and_eq_true, List.all_eq_true, Bool.not_eq_true',
    List.contains_eq_mem, decide_eq_false_iff_not, Bool.or_eq_true, List.isEmpty_iff] at releases
  refine ⟨releases.1, fun bare throws => ?_⟩
  simpa [bare, throws] using releases.2

/-- The synchronous dispatch of an advanced handler's answer. -/
theorem dispatchAdvancedServer_covers {library : MessageLibrary} {tasks : FinishedTasks}
    {call after : OpenCall Cap} {outcome : Except Unit RawAdvancedHandlerResult}
    {answer : Except Thrown DispatchCallResult}
    (dispatched : dispatchAdvancedServer library tasks call outcome = (answer, after))
    {outstanding : List UInt32} (included : outstanding ⊆ call.cleanup.requestCapIds)
    (fresh : call.cleanup.done = false)
    (releases
      : ∀ actionObj action, outcome = .ok actionObj → decodeAction {} actionObj = .ok action →
          ActionReleases library tasks call.runtime outstanding true action)
    : (phaseAfter after.cleanup false none answer).Covers
        (stillTargets outstanding after.runtime) := by
  have emptied := stillTargets_cleanup fresh included
  cases outcome with
  | error _ =>
      obtain ⟨rfl, rfl⟩ := Prod.mk.inj dispatched
      exact emptied
  | ok actionObj =>
      cases decoded : decodeAction {} actionObj with
      | error message =>
          simp only [dispatchAdvancedServer, decoded] at dispatched
          obtain ⟨rfl, rfl⟩ := Prod.mk.inj dispatched
          exact emptied
      | ok action =>
          have exit : ExitKeeps library tasks action call
              (dispatchDecodedAction library tasks action call) :=
            dispatchDecodedAction_exitKeeps fresh
          have spared := (releases actionObj action rfl decoded).spared
          simp only [dispatchAdvancedServer, decoded] at dispatched
          rcases answered : dispatchDecodedAction library tasks action call with
            ⟨thrown | result, left⟩
          · rw [answered] at exit dispatched
            obtain ⟨rfl, rfl⟩ := Prod.mk.inj dispatched
            exact (exit.released_error included fresh spared).1
          · rw [answered] at exit dispatched
            obtain ⟨rfl, rfl⟩ := Prod.mk.inj dispatched
            exact exit.covers_ok included fresh false none

/-- The continuation of a deferred call. -/
theorem dispatchDeferred_covers {library : MessageLibrary} {tasks : FinishedTasks}
    {early : EarlyFlags} {nested : Bool} {call after : OpenCall Cap}
    {outcome : Except Unit RawAdvancedHandlerResult}
    {answer : Except Thrown DispatchCallResult}
    (dispatched : dispatchDeferred library tasks early nested call outcome = (answer, after))
    {outstanding : List UInt32} (included : outstanding ⊆ call.cleanup.requestCapIds)
    (fresh : call.cleanup.done = false) (cancelable : Option Bool)
    (releases
      : ∀ nextAction, finishedTaskAction outcome = .ok nextAction →
          lateOption early nextAction = none →
          ActionReleases library tasks call.runtime outstanding nested nextAction)
    : (phaseAfter after.cleanup true cancelable answer).Covers
        (stillTargets outstanding after.runtime) := by
  have emptied := stillTargets_cleanup fresh included
  unfold dispatchDeferred at dispatched
  cases ended : finishedTaskAction outcome with
  | error message =>
      simp only [ended] at dispatched
      obtain ⟨rfl, rfl⟩ := Prod.mk.inj dispatched
      exact emptied
  | ok action =>
      simp only [ended] at dispatched
      cases late : lateOption early action with
      | some message =>
          simp only [late] at dispatched
          obtain ⟨rfl, rfl⟩ := Prod.mk.inj dispatched
          exact emptied
      | none =>
          simp only [late] at dispatched
          have exit : ExitKeeps library tasks action call
              (dispatchDecodedAction library tasks action call) :=
            dispatchDecodedAction_exitKeeps fresh
          obtain ⟨spared, early⟩ := releases action ended late
          rcases answered : dispatchDecodedAction library tasks action call with
            ⟨thrown | result, left⟩
          · rw [answered] at exit dispatched
            obtain ⟨rfl, rfl⟩ := Prod.mk.inj dispatched
            have released := exit.released_error included fresh spared
            cases nested with
            | true => exact released.1
            | false => exact released.2 (early rfl)
          · rw [answered] at exit dispatched
            obtain ⟨rfl, rfl⟩ := Prod.mk.inj dispatched
            exact exit.covers_ok included fresh true cancelable

/-- The plain server. Only its answer to a handler's error spares an id, the null one. -/
theorem dispatchCapabilityServer_covers {library : MessageLibrary}
    {runtime after : RuntimeTargets Cap} {requestCapIds outstanding : List UInt32}
    {outcome : Except Unit (List UInt8 × List UInt8)}
    {answer : Except Thrown DispatchCallResult}
    (dispatched
      : dispatchCapabilityServer library runtime requestCapIds outcome = (answer, after))
    (included : outstanding ⊆ requestCapIds)
    (nonzero : ∀ failed, outcome = .error failed → 0 ∉ outstanding)
    (cleanup : RequestCapCleanupState)
    : (phaseAfter cleanup false none answer).Covers (stillTargets outstanding after) := by
  cases outcome with
  | error failed =>
      obtain ⟨rfl, rfl⟩ := Prod.mk.inj dispatched
      intro id member
      have kept := keepsOnly_dropRequestCapsExceptOne.stillTargets_subset included member
      have zero : id = 0 := by simpa using kept
      exact absurd (zero ▸ (List.mem_filter.mp member).1) (nonzero failed rfl)
  | ok response =>
      obtain ⟨response, responseCaps⟩ := response
      have emptied (runtime : RuntimeTargets Cap) :=
        (keepsOnly_dropRequestCaps runtime requestCapIds).stillTargets_subset included
      cases decoded : decodeCapTable responseCaps with
      | error message =>
          simp only [dispatchCapabilityServer, decoded] at dispatched
          obtain ⟨rfl, rfl⟩ := Prod.mk.inj dispatched
          exact emptied runtime
      | ok responseCapIds =>
          simp only [dispatchCapabilityServer, decoded] at dispatched
          rcases dropped : dropRequestCapsExcept runtime requestCapIds responseCapIds with
            ⟨message | _, left⟩
          · rw [dropped] at dispatched
            obtain ⟨rfl, rfl⟩ := Prod.mk.inj dispatched
            exact emptied _
          rw [dropped] at dispatched
          dsimp only at dispatched
          split at dispatched
          · obtain ⟨rfl, rfl⟩ := Prod.mk.inj dispatched
            exact emptied _
          · obtain ⟨rfl, rfl⟩ := Prod.mk.inj dispatched
            intro id member
            obtain ⟨old, present⟩ := List.mem_filter.mp member
            have retained := ((mem_dropRequestCapsExcept dropped).mp (of_decide_eq_true present)).2
            exact (retained (included old)).1

/-- The tail-call server spares the null id and the target that it forwards to. -/
theorem dispatchTailCallHandlerServer_covers {runtime after : RuntimeTargets Cap}
    {requestCapIds outstanding : List UInt32} {outcome : Except Unit UInt32}
    {answer : Except Thrown DispatchCallResult}
    (dispatched : dispatchTailCallHandlerServer runtime requestCapIds outcome = (answer, after))
    (included : outstanding ⊆ requestCapIds) (nonzero : 0 ∉ outstanding)
    (spared : ∀ target, outcome = .ok target → target ∉ outstanding)
    (cleanup : RequestCapCleanupState)
    : (phaseAfter cleanup false none answer).Covers (stillTargets outstanding after) := by
  have released {retained : UInt32} (spared : retained ∉ outstanding)
      : stillTargets outstanding (dropRequestCapsExceptOne runtime requestCapIds retained)
        ⊆ [] := by
    intro id member
    have kept := keepsOnly_dropRequestCapsExceptOne.stillTargets_subset included member
    have old := (List.mem_filter.mp member).1
    rcases List.mem_pair.mp kept with rfl | rfl
    · exact absurd old nonzero
    · exact absurd old spared
  cases outcome with
  | error failed =>
      obtain ⟨rfl, rfl⟩ := Prod.mk.inj dispatched
      exact released nonzero
  | ok target =>
      simp only [dispatchTailCallHandlerServer] at dispatched
      split at dispatched
      · obtain ⟨rfl, rfl⟩ := Prod.mk.inj dispatched
        exact released (spared target rfl)
      · obtain ⟨rfl, rfl⟩ := Prod.mk.inj dispatched
        exact released nonzero

section Labels

variable {library : MessageLibrary} {state : CallState Cap} {runtime : RuntimeTargets Cap}
  {phase : CallPhase}

/-- The handler ends in an IO error. -/
theorem run_handlerFails_covers
    (ran : CallLabel.handlerFails.run library state = some (runtime, phase))
    (allowed : CallLabel.handlerFails.releases library state = true)
    (covers : state.phase.Covers state.outstanding)
    : phase.Covers (stillTargets state.outstanding runtime) := by
  simp only [CallLabel.run] at ran
  split at ran <;> rename_i ids handling
  · rw [handling] at covers
    simp only [CallLabel.releases, handling] at allowed
    rcases dispatched
      : dispatchCapabilityServer library state.runtime ids (.error ()) with ⟨answer, after⟩
    rw [dispatched] at ran
    obtain ⟨rfl, rfl⟩ := Prod.mk.inj (Option.some.inj ran)
    exact dispatchCapabilityServer_covers dispatched covers (fun _ _ => by simpa using allowed) _
  · rw [handling] at covers
    simp only [CallLabel.releases, handling] at allowed
    rcases dispatched
      : dispatchTailCallHandlerServer state.runtime ids (.error ()) with ⟨answer, after⟩
    rw [dispatched] at ran
    obtain ⟨rfl, rfl⟩ := Prod.mk.inj (Option.some.inj ran)
    exact dispatchTailCallHandlerServer_covers dispatched covers (by simpa using allowed)
      (fun _ same => nomatch same) _
  · rw [handling] at covers
    rcases dispatched : dispatchAdvancedServer library (fun _ => none)
      ⟨state.runtime, ⟨ids, false⟩⟩ (.error ()) with ⟨answer, after⟩
    rw [dispatched] at ran
    obtain ⟨rfl, rfl⟩ := Prod.mk.inj (Option.some.inj ran)
    exact dispatchAdvancedServer_covers dispatched covers rfl (fun _ _ same => nomatch same)
  · cases ran

/-- A plain handler returns a response. -/
theorem run_handlerReturns_covers {response responseCaps : List UInt8}
    (ran
      : (CallLabel.handlerReturns response responseCaps).run library state
        = some (runtime, phase))
    (covers : state.phase.Covers state.outstanding)
    : phase.Covers (stillTargets state.outstanding runtime) := by
  simp only [CallLabel.run] at ran
  split at ran <;> rename_i ids handling
  · rw [handling] at covers
    rcases dispatched : dispatchCapabilityServer library state.runtime ids
      (.ok (response, responseCaps)) with ⟨answer, after⟩
    rw [dispatched] at ran
    obtain ⟨rfl, rfl⟩ := Prod.mk.inj (Option.some.inj ran)
    exact dispatchCapabilityServer_covers dispatched covers (fun _ same => nomatch same) _
  · cases ran

/-- A tail-call handler names the target that the call goes on to. -/
theorem run_handlerForwards_covers {forwardTargetId : UInt32}
    (ran
      : (CallLabel.handlerForwards forwardTargetId).run library state = some (runtime, phase))
    (allowed : (CallLabel.handlerForwards forwardTargetId).releases library state = true)
    (covers : state.phase.Covers state.outstanding)
    : phase.Covers (stillTargets state.outstanding runtime) := by
  simp only [CallLabel.run] at ran
  split at ran <;> rename_i ids handling
  · rw [handling] at covers
    rcases dispatched : dispatchTailCallHandlerServer state.runtime ids
      (.ok forwardTargetId) with ⟨answer, after⟩
    rw [dispatched] at ran
    obtain ⟨rfl, rfl⟩ := Prod.mk.inj (Option.some.inj ran)
    simp only [CallLabel.releases, Bool.and_eq_true, Bool.not_eq_true',
      List.contains_eq_mem, decide_eq_false_iff_not] at allowed
    refine dispatchTailCallHandlerServer_covers dispatched covers allowed.1 ?_ _
    rintro target ⟨⟩
    exact allowed.2
  · cases ran

/-- An advanced handler returns an action. -/
theorem run_handlerActs_covers {tasks : FinishedTasks} {actionObj : RawAdvancedHandlerResult}
    (ran : (CallLabel.handlerActs tasks actionObj).run library state = some (runtime, phase))
    (allowed : (CallLabel.handlerActs tasks actionObj).releases library state = true)
    (covers : state.phase.Covers state.outstanding)
    : phase.Covers (stillTargets state.outstanding runtime) := by
  simp only [CallLabel.run] at ran
  split at ran <;> rename_i ids handling
  · rw [handling] at covers
    rcases dispatched : dispatchAdvancedServer library tasks ⟨state.runtime, ⟨ids, false⟩⟩
      (.ok actionObj) with ⟨answer, after⟩
    rw [dispatched] at ran
    obtain ⟨rfl, rfl⟩ := Prod.mk.inj (Option.some.inj ran)
    refine dispatchAdvancedServer_covers dispatched covers rfl ?_
    rintro _ action ⟨⟩ decoded
    simp only [CallLabel.releases, decoded] at allowed
    exact actionReleases_spec allowed
  · cases ran

/-- The task of a deferred call ends. -/
theorem run_taskEnds_covers {tasks : FinishedTasks}
    {outcome : Except Unit RawAdvancedHandlerResult}
    (ran : (CallLabel.taskEnds tasks outcome).run library state = some (runtime, phase))
    (allowed : (CallLabel.taskEnds tasks outcome).releases library state = true)
    (covers : state.phase.Covers state.outstanding)
    : phase.Covers (stillTargets state.outstanding runtime) := by
  simp only [CallLabel.run] at ran
  split at ran
  · rename_i cleanup early nested cancelable deferred
    rw [deferred] at covers
    rcases dispatched : dispatchDeferred library tasks early nested ⟨state.runtime, cleanup⟩
      outcome with ⟨answer, after⟩
    rw [dispatched] at ran
    obtain ⟨rfl, rfl⟩ := Prod.mk.inj (Option.some.inj ran)
    refine dispatchDeferred_covers dispatched covers.1 covers.2 _ ?_
    intro nextAction ended timely
    simp only [CallLabel.releases, deferred, ended, timely, Option.isSome_none,
      Bool.false_or] at allowed
    exact actionReleases_spec allowed
  · cases ran

/-- A forwarded call comes back. Nothing was outstanding any more when it was forwarded. -/
theorem run_forwardEnds_covers {outcome : Except String Unit}
    (ran : (CallLabel.forwardEnds outcome).run library state = some (runtime, phase))
    (covers : state.phase.Covers state.outstanding)
    : phase.Covers (stillTargets state.outstanding runtime) := by
  simp only [CallLabel.run] at ran
  split at ran <;> rename_i forwarding
  · rw [forwarding] at covers
    have none : state.outstanding = [] := List.subset_nil.mp covers
    cases outcome <;>
      · obtain ⟨rfl, rfl⟩ := Prod.mk.inj (Option.some.inj ran)
        simp [CallPhase.Covers, stillTargets, none]
  · cases ran

/-- The peer cancels the call. -/
theorem run_peerCancels_covers
    (ran : CallLabel.peerCancels.run library state = some (runtime, phase))
    (allowed : CallLabel.peerCancels.releases library state = true)
    (covers : state.phase.Covers state.outstanding)
    : phase.Covers (stillTargets state.outstanding runtime) := by
  have shrinks : stillTargets state.outstanding runtime ⊆ state.outstanding :=
    List.filter_sublist.subset
  simp only [CallLabel.run] at ran
  split at ran <;> rename_i waiting
  · obtain ⟨rfl, rfl⟩ := Prod.mk.inj (Option.some.inj ran)
    simp only [CallLabel.releases, waiting, List.isEmpty_iff] at allowed
    simp [CallPhase.Covers, stillTargets, allowed]
  · obtain ⟨rfl, rfl⟩ := Prod.mk.inj (Option.some.inj ran)
    rw [waiting] at covers
    have none : state.outstanding = [] := List.subset_nil.mp covers
    simp [CallPhase.Covers, stillTargets, none]
  · obtain ⟨rfl, rfl⟩ := Prod.mk.inj (Option.some.inj ran)
    exact covers.mono shrinks
  · obtain ⟨rfl, rfl⟩ := Prod.mk.inj (Option.some.inj ran)
    exact covers.mono shrinks
  · cases ran

/-- The steps other than an arrival, given that the state's phase covers its ids. -/
theorem CallLabel.run_covers {label : CallLabel Cap}
    (ran : label.run library state = some (runtime, phase))
    (allowed : label.releases library state = true)
    (covers : state.phase.Covers state.outstanding)
    (later : ∀ server hooks, label ≠ .arrives server hooks)
    : phase.Covers (stillTargets state.outstanding runtime) := by
  cases label with
  | environment op =>
      obtain ⟨⟨answer, after⟩, _, eq⟩ := Option.map_eq_some_iff.mp ran
      obtain ⟨rfl, rfl⟩ := Prod.mk.inj eq
      exact covers.mono List.filter_sublist.subset
  | arrives server hooks => exact absurd rfl (later server hooks)
  | handlerFails => exact run_handlerFails_covers ran allowed covers
  | handlerReturns response responseCaps => exact run_handlerReturns_covers ran covers
  | handlerForwards forwardTargetId => exact run_handlerForwards_covers ran allowed covers
  | handlerActs tasks action => exact run_handlerActs_covers ran allowed covers
  | taskEnds tasks outcome => exact run_taskEnds_covers ran allowed covers
  | forwardEnds outcome => exact run_forwardEnds_covers ran covers
  | peerCancels => exact run_peerCancels_covers ran allowed covers

end Labels

/-- The steps of the call that meet the condition keep its phase covering its ids. -/
theorem CallState.next_covers {library : MessageLibrary} {state after : CallState Cap}
    {label : CallLabel Cap} (step : state.next library label = some after)
    (allowed : label.releases library state = true)
    (covers : state.phase.Covers state.outstanding)
    : after.phase.Covers after.outstanding := by
  obtain ⟨⟨runtime, phase⟩, ran, rfl⟩ := Option.map_eq_some_iff.mp step
  by_cases arrival : ∃ server hooks, label = .arrives server hooks
  · obtain ⟨server, hooks, rfl⟩ := arrival
    simp only [CallLabel.run] at ran
    split at ran
    · obtain ⟨⟨requestCapIds, added⟩, _, eq⟩ := Option.map_eq_some_iff.mp ran
      obtain ⟨rfl, rfl⟩ := Prod.mk.inj eq
      exact List.Subset.refl _
    · cases ran
  · have later : ∀ server hooks, label ≠ .arrives server hooks :=
      fun server hooks same => arrival ⟨server, hooks, same⟩
    have kept := CallLabel.run_covers ran allowed covers later
    cases label with
    | arrives server hooks => exact absurd rfl (later server hooks)
    | _ => exact kept

/-- In every run whose steps meet the condition, a call that has finished left nothing
in the target table but what its returned non-streaming response names.
-/
theorem request_caps_released {library : MessageLibrary} {state : CallState Cap}
    (reached
      : ((callSystem Cap library).guard
          (fun state label => label.releases library state = true)).Reachable state)
    : state.NoLeak := by
  have covers : state.phase.Covers state.outstanding := by
    refine reached.invariant (fun state => state.phase.Covers state.outstanding) ?_ ?_
    · rintro first rfl
      exact List.Subset.refl []
    · rintro before label after ⟨allowed, step⟩ covers
      exact CallState.next_covers step allowed covers
  unfold CallState.NoLeak
  cases phase : state.phase with
  | finished responseCaps =>
      rw [phase] at covers
      exact covers
  | idle | handling | deferred | forwarding => trivial

/-- A one-segment message with a null root, and a library that reads it. -/
def nullMessage : List UInt8 :=
  [0, 0, 0, 0, 1, 0, 0, 0, 0, 0, 0, 0, 0, 0, 0, 0]

def nullMessageLibrary : MessageLibrary where
  readMessage bytes := if bytes = nullMessage then .ok () else .error "not the null message"
  copyRoot _ := .ok ()

/-- Two request capabilities, a deferred handler, and a response that returns the first. -/
theorem request_caps_released_deferred_response
    : ∃ state : CallState Nat,
        state.phase = .finished [1] ∧ state.outstanding = [1] ∧ state.NoLeak := by
  let labels : List (CallLabel Nat) :=
    [.arrives .advanced [some 10, none, some 20],
      .handlerActs (fun _ => none) (.control true true false (.awaitTask 0 0)),
      .environment (.retain 2),
      .taskEnds (fun _ => none) (.ok (.returnPayload nullMessage [1, 0, 0, 0]))]
  let checks (state : CallState Nat) : Bool :=
    (match state.phase with
      | .finished responseCaps => decide (responseCaps = [1])
      | _ => false)
    && decide (state.outstanding = [1])
  have replayed : ∃ state,
      ((callSystem Nat nullMessageLibrary).guard
        (fun state label => label.releases nullMessageLibrary state = true)).Reachable state
      ∧ checks state = true :=
    Transition.exists_guarded_of_replay _ labels checks (by decide)
  obtain ⟨state, reached, checked⟩ := replayed
  have noLeak := request_caps_released reached
  simp only [checks, Bool.and_eq_true, decide_eq_true_eq] at checked
  obtain ⟨phase, outstanding⟩ := checked
  split at phase
  · rename_i responseCaps finished
    exact ⟨state, finished.trans (by rw [of_decide_eq_true phase]), outstanding, noLeak⟩
  · cases phase

/-- A cancelable deferred call that its peer cancels never cleans up. -/
theorem canceled_deferred_call_leaks
    : ∃ state : CallState Nat,
        (callSystem Nat nullMessageLibrary).Reachable state ∧ ¬ state.NoLeak := by
  let labels : List (CallLabel Nat) :=
    [.arrives .advanced [some 10],
      .handlerActs (fun _ => none) (.control true true false (.awaitTask 0 0)), .peerCancels]
  let checks (state : CallState Nat) : Bool :=
    (match state.phase with
      | .finished [] => true
      | _ => false)
    && decide (state.outstanding = [1])
  have replayed : ∃ state,
      (callSystem Nat nullMessageLibrary).Reachable state ∧ checks state = true :=
    Transition.exists_reachable_of_replay labels checks (by decide)
  obtain ⟨state, reached, checked⟩ := replayed
  refine ⟨state, reached, fun noLeak => ?_⟩
  simp only [checks, Bool.and_eq_true, decide_eq_true_eq] at checked
  obtain ⟨phase, outstanding⟩ := checked
  split at phase
  · rename_i finished
    simp [CallState.NoLeak, finished, outstanding] at noLeak
  · cases phase

end Capnp.Rpc
