import Mathlib.Data.List.Basic

/-! The kinds of operation that a runtime's queue holds, and the two hand-written chains of
tests over them: the one that processes an operation and the one that fails what is left
when the worker ends.
-/

namespace Capnp.Rpc

/-- The alternatives of `QueuedOperation`. -/
inductive OperationKind where
  | rawCall | rawCallData | startPendingCall | startPendingCallData | startStreamingPendingCall
  | startStreamingPendingCallData | awaitPendingCall | releasePendingCall | getPipelinedCap
  | streamingCall | targetGetFd | targetWhenResolved | targetWhenResolvedStart
  | targetWhenResolvedPoll | enableTraceEncoder | disableTraceEncoder | setTraceEncoder
  | cppCallWithAccept | cppCallPipelinedWithAccept | registerLoopbackTarget
  | registerLoopbackBootstrapTarget | registerHandlerTarget | registerAdvancedHandlerTarget
  | registerTailCallHandlerTarget | registerTailCallTarget | registerFdTarget
  | registerFdProbeTarget | releaseTarget | releaseTargets | retainTarget | newPromiseCapability
  | promiseCapabilityFulfill | promiseCapabilityReject | promiseCapabilityRelease
  | orderingSetResolveHold | orderingFlushHeldResolves | orderingHeldResolveCount | connectTarget
  | connectTargetStart | connectTargetFd | newTransportPipe | newTransportFromFd
  | newTransportFromFdTake | releaseTransport | transportGetFd | connectTargetTransport
  | listenLoopback | acceptLoopback | releaseListener | newClient | newClientStart
  | releaseClient | clientBootstrap | clientOnDisconnect | clientOnDisconnectStart
  | clientSetFlowLimit | newServer | newServerWithBootstrapFactory | releaseServer | serverListen
  | serverAccept | serverAcceptStart | serverAcceptFd | serverAcceptTransport | serverDrain
  | serverDrainStart | clientQueueSize | clientQueueCount | clientOutgoingWaitNanos | targetCount
  | listenerCount | clientCount | serverCount | pendingCallCount | awaitRegisterPromise
  | cancelRegisterPromise | releaseRegisterPromise | awaitUnitPromise | cancelUnitPromise
  | releaseUnitPromise | kjAsyncSleepNanosStart | kjAsyncPromiseAwait | kjAsyncPromiseCancel
  | kjAsyncPromiseRelease | kjAsyncPromiseThenStart | kjAsyncPromiseCatchStart
  | kjAsyncPromiseAllStart | kjAsyncPromiseRaceStart | kjAsyncTaskSetNew | kjAsyncTaskSetRelease
  | kjAsyncTaskSetAddPromise | kjAsyncTaskSetClear | kjAsyncTaskSetIsEmpty
  | kjAsyncTaskSetOnEmptyStart | kjAsyncTaskSetErrorCount | kjAsyncTaskSetTakeLastError | pump
  | pumpAsync | multiVatNewClient | multiVatNewServer | multiVatNewServerWithBootstrapFactory
  | multiVatReleasePeer | multiVatBootstrap | multiVatBootstrapPeer
  | multiVatSetForwardingEnabled | multiVatResetForwardingStats | multiVatForwardCount
  | multiVatThirdPartyTokenCount | multiVatDeniedForwardCount | multiVatHasConnection
  | multiVatSetRestorer | multiVatClearRestorer | multiVatPublishSturdyRef
  | multiVatPublishSturdyRefStart | multiVatUnpublishSturdyRef | multiVatUnpublishSturdyRefStart
  | multiVatClearPublishedSturdyRefs | multiVatClearPublishedSturdyRefsStart
  | multiVatPublishedSturdyRefCount | multiVatRestoreSturdyRef | multiVatRestoreSturdyRefStart
  | multiVatGetDiagnostics | multiVatConnectionBlock | multiVatConnectionUnblock
  | multiVatConnectionDisconnect | multiVatConnectionResolveDisembargoCounts
  | multiVatConnectionResolveDisembargoTrace | multiVatConnectionResetResolveDisembargoTrace
deriving DecidableEq

/-- The alternatives that `run` tests for. -/
def runChain : List OperationKind :=
  [
    .rawCall, .rawCallData, .startPendingCall, .startPendingCallData, .startStreamingPendingCall,
    .startStreamingPendingCallData, .awaitPendingCall, .releasePendingCall, .getPipelinedCap,
    .streamingCall, .targetGetFd, .targetWhenResolved, .targetWhenResolvedStart,
    .targetWhenResolvedPoll, .enableTraceEncoder, .disableTraceEncoder, .setTraceEncoder,
    .cppCallWithAccept, .cppCallPipelinedWithAccept, .registerLoopbackTarget,
    .registerLoopbackBootstrapTarget, .registerHandlerTarget, .registerAdvancedHandlerTarget,
    .registerTailCallHandlerTarget, .registerTailCallTarget, .registerFdTarget,
    .registerFdProbeTarget, .releaseTarget, .releaseTargets, .retainTarget,
    .newPromiseCapability, .promiseCapabilityFulfill, .promiseCapabilityReject,
    .promiseCapabilityRelease, .orderingSetResolveHold, .orderingFlushHeldResolves,
    .orderingHeldResolveCount, .connectTarget, .connectTargetStart, .connectTargetFd,
    .newTransportPipe, .newTransportFromFd, .newTransportFromFdTake, .releaseTransport,
    .transportGetFd, .connectTargetTransport, .listenLoopback, .acceptLoopback, .releaseListener,
    .newClient, .newClientStart, .releaseClient, .clientBootstrap, .clientOnDisconnect,
    .clientOnDisconnectStart, .clientSetFlowLimit, .clientQueueSize, .clientQueueCount,
    .clientOutgoingWaitNanos, .targetCount, .listenerCount, .clientCount, .serverCount,
    .pendingCallCount, .newServer, .newServerWithBootstrapFactory, .releaseServer, .serverListen,
    .serverAccept, .serverAcceptStart, .serverAcceptFd, .serverAcceptTransport, .serverDrain,
    .serverDrainStart, .awaitRegisterPromise, .cancelRegisterPromise, .releaseRegisterPromise,
    .awaitUnitPromise, .cancelUnitPromise, .releaseUnitPromise, .kjAsyncSleepNanosStart,
    .kjAsyncPromiseAwait, .kjAsyncPromiseCancel, .kjAsyncPromiseRelease,
    .kjAsyncPromiseThenStart, .kjAsyncPromiseCatchStart, .kjAsyncPromiseAllStart,
    .kjAsyncPromiseRaceStart, .kjAsyncTaskSetNew, .kjAsyncTaskSetRelease,
    .kjAsyncTaskSetAddPromise, .kjAsyncTaskSetClear, .kjAsyncTaskSetIsEmpty,
    .kjAsyncTaskSetOnEmptyStart, .kjAsyncTaskSetErrorCount, .kjAsyncTaskSetTakeLastError,
    .multiVatNewClient, .multiVatNewServer, .multiVatNewServerWithBootstrapFactory,
    .multiVatReleasePeer, .multiVatBootstrap, .multiVatBootstrapPeer,
    .multiVatSetForwardingEnabled, .multiVatResetForwardingStats, .multiVatForwardCount,
    .multiVatThirdPartyTokenCount, .multiVatDeniedForwardCount, .multiVatHasConnection,
    .multiVatSetRestorer, .multiVatClearRestorer, .multiVatPublishSturdyRef,
    .multiVatPublishSturdyRefStart, .multiVatUnpublishSturdyRef,
    .multiVatUnpublishSturdyRefStart, .multiVatClearPublishedSturdyRefs,
    .multiVatClearPublishedSturdyRefsStart, .multiVatPublishedSturdyRefCount,
    .multiVatRestoreSturdyRef, .multiVatRestoreSturdyRefStart, .multiVatGetDiagnostics,
    .multiVatConnectionBlock, .multiVatConnectionUnblock, .multiVatConnectionDisconnect,
    .multiVatConnectionResolveDisembargoCounts, .multiVatConnectionResolveDisembargoTrace,
    .multiVatConnectionResetResolveDisembargoTrace, .pump, .pumpAsync
  ]

/-- The alternatives that `failPendingCalls` tests for; it asserts that there are no others. -/
def failChain : List OperationKind :=
  [
    .rawCall, .rawCallData, .startPendingCall, .startPendingCallData, .startStreamingPendingCall,
    .startStreamingPendingCallData, .awaitPendingCall, .releasePendingCall, .getPipelinedCap,
    .streamingCall, .targetGetFd, .targetWhenResolved, .targetWhenResolvedStart,
    .targetWhenResolvedPoll, .enableTraceEncoder, .disableTraceEncoder, .setTraceEncoder,
    .cppCallWithAccept, .cppCallPipelinedWithAccept, .registerLoopbackTarget,
    .registerLoopbackBootstrapTarget, .registerHandlerTarget, .registerAdvancedHandlerTarget,
    .registerTailCallHandlerTarget, .registerTailCallTarget, .registerFdTarget,
    .registerFdProbeTarget, .releaseTarget, .releaseTargets, .retainTarget,
    .newPromiseCapability, .promiseCapabilityFulfill, .promiseCapabilityReject,
    .promiseCapabilityRelease, .orderingSetResolveHold, .orderingFlushHeldResolves,
    .orderingHeldResolveCount, .connectTarget, .connectTargetStart, .connectTargetFd,
    .newTransportPipe, .newTransportFromFd, .newTransportFromFdTake, .releaseTransport,
    .transportGetFd, .connectTargetTransport, .listenLoopback, .acceptLoopback, .releaseListener,
    .newClient, .newClientStart, .releaseClient, .clientBootstrap, .clientOnDisconnect,
    .clientOnDisconnectStart, .clientSetFlowLimit, .newServer, .newServerWithBootstrapFactory,
    .releaseServer, .serverListen, .serverAccept, .serverAcceptStart, .serverAcceptFd,
    .serverAcceptTransport, .serverDrain, .serverDrainStart, .clientQueueSize, .clientQueueCount,
    .clientOutgoingWaitNanos, .targetCount, .listenerCount, .clientCount, .serverCount,
    .pendingCallCount, .awaitRegisterPromise, .cancelRegisterPromise, .releaseRegisterPromise,
    .awaitUnitPromise, .cancelUnitPromise, .releaseUnitPromise, .kjAsyncSleepNanosStart,
    .kjAsyncPromiseAwait, .kjAsyncPromiseCancel, .kjAsyncPromiseRelease,
    .kjAsyncPromiseThenStart, .kjAsyncPromiseCatchStart, .kjAsyncPromiseAllStart,
    .kjAsyncPromiseRaceStart, .kjAsyncTaskSetNew, .kjAsyncTaskSetRelease,
    .kjAsyncTaskSetAddPromise, .kjAsyncTaskSetClear, .kjAsyncTaskSetIsEmpty,
    .kjAsyncTaskSetOnEmptyStart, .kjAsyncTaskSetErrorCount, .kjAsyncTaskSetTakeLastError,
    .multiVatNewClient, .multiVatNewServer, .multiVatNewServerWithBootstrapFactory,
    .multiVatReleasePeer, .multiVatBootstrap, .multiVatBootstrapPeer,
    .multiVatSetForwardingEnabled, .multiVatResetForwardingStats, .multiVatForwardCount,
    .multiVatThirdPartyTokenCount, .multiVatDeniedForwardCount, .multiVatHasConnection,
    .multiVatSetRestorer, .multiVatClearRestorer, .multiVatPublishSturdyRef,
    .multiVatPublishSturdyRefStart, .multiVatUnpublishSturdyRef,
    .multiVatUnpublishSturdyRefStart, .multiVatClearPublishedSturdyRefs,
    .multiVatClearPublishedSturdyRefsStart, .multiVatPublishedSturdyRefCount,
    .multiVatRestoreSturdyRef, .multiVatRestoreSturdyRefStart, .multiVatGetDiagnostics,
    .multiVatConnectionBlock, .multiVatConnectionUnblock, .multiVatConnectionDisconnect,
    .multiVatConnectionResolveDisembargoCounts, .pump, .pumpAsync
  ]

/-- Processing these hands a promise to the KJ task set, whose continuation completes them. -/
def scheduledKinds : List OperationKind :=
  [.rawCall, .rawCallData, .awaitPendingCall, .awaitRegisterPromise, .awaitUnitPromise]

/-- The chain in `run` covers every alternative. -/
theorem mem_runChain (kind : OperationKind) : kind ∈ runChain := by
  cases kind <;> decide

/-- The chain in `failPendingCalls` misses two alternatives. -/
theorem mem_failChain_iff (kind : OperationKind)
    : kind ∈ failChain
      ↔ kind ≠ .multiVatConnectionResolveDisembargoTrace
        ∧ kind ≠ .multiVatConnectionResetResolveDisembargoTrace := by
  cases kind <;> decide

end Capnp.Rpc
