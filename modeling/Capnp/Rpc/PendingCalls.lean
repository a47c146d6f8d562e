import Capnp.Rpc.Targets

/-! Pending calls, the deferred Lean tasks that serve calls, and the queue of cancelable ones.
Pending calls live in a table by handle; cancelable deferred tasks are queued as weak
references in the order of their dispatch. Calls and tasks are numbered as they come.
-/

namespace Capnp.Rpc

/-- A deferred handler task. `serves` is the call that was dispatched to the handler, and
a task whose promise chain is gone (`alive = false`) can no longer be locked.
-/
structure DeferredLeanTaskState where
  serves : Nat
  allowCancellation : Bool
  completed : Bool := false
  cancellationRequested : Bool := false
  alive : Bool := true
deriving DecidableEq

def requestCancellation (task : DeferredLeanTaskState) : Bool × DeferredLeanTaskState :=
  if !task.allowCancellation || task.completed then (false, task)
  else if task.cancellationRequested then (false, task)
  else (true, { task with cancellationRequested := true })

/-- The pending calls of a runtime with their tasks. -/
structure CallRuntime where
  pendingCalls : Table UInt32 Nat := ∅
  nextPendingCallId : UInt32 := 1
  createdCalls : Nat := 0
  tasks : Table Nat DeferredLeanTaskState := ∅
  createdTasks : Nat := 0
  activeCancelableDeferredTasks : List Nat := []

def unknownPendingCall (pendingCallId : UInt32) : String :=
  s!"unknown pending RPC call id: {pendingCallId.toNat}"

def addPendingCall (runtime : CallRuntime) : Option (UInt32 × CallRuntime) :=
  (allocateId runtime.pendingCalls (runtime.pendingCalls.keys.length + 1)
      runtime.nextPendingCallId).map
    (fun (pendingCallId, next) =>
      (pendingCallId,
        { runtime with
          pendingCalls := runtime.pendingCalls.insert pendingCallId runtime.createdCalls
          nextPendingCallId := next
          createdCalls := runtime.createdCalls + 1 }))

/-- Locking a weak reference. -/
def lockTask (tasks : Table Nat DeferredLeanTaskState) (task : Nat)
    : Option DeferredLeanTaskState :=
  (tasks.lookup task).filter (·.alive)

/-- Pops the queue until a task accepts the request. -/
def cancelOneActiveDeferredTask (tasks : Table Nat DeferredLeanTaskState)
    : List Nat → Table Nat DeferredLeanTaskState × List Nat
  | [] => (tasks, [])
  | front :: rest =>
      match lockTask tasks front with
      | none => cancelOneActiveDeferredTask tasks rest
      | some state =>
          match requestCancellation state with
          | (true, state) => (tasks.insert front state, rest)
          | (false, _) => cancelOneActiveDeferredTask tasks rest

/-- The destructor of a task's state requests cancellation as well. -/
def destroyTask (tasks : Table Nat DeferredLeanTaskState) (task : Nat)
    : Table Nat DeferredLeanTaskState :=
  match lockTask tasks task with
  | none => tasks
  | some state => tasks.insert task { (requestCancellation state).2 with alive := false }

/-- `destroyed` are the tasks whose promise goes away when the call's canceler fires. -/
def releasePendingCall (runtime : CallRuntime) (pendingCallId : UInt32) (destroyed : List Nat)
    : Except String Unit × CallRuntime :=
  match runtime.pendingCalls.lookup pendingCallId with
  | none => (.error (unknownPendingCall pendingCallId), runtime)
  | some _ =>
      let (tasks, queue) :=
        cancelOneActiveDeferredTask runtime.tasks runtime.activeCancelableDeferredTasks
      (.ok (),
        { runtime with
          tasks := destroyed.foldl destroyTask tasks
          activeCancelableDeferredTasks := queue
          pendingCalls := runtime.pendingCalls.erase pendingCallId })

/-- Awaiting takes the call out of the table. -/
def takePendingCall (runtime : CallRuntime) (pendingCallId : UInt32)
    : Except String Nat × CallRuntime :=
  match runtime.pendingCalls.lookup pendingCallId with
  | none => (.error (unknownPendingCall pendingCallId), runtime)
  | some call =>
      (.ok call, { runtime with pendingCalls := runtime.pendingCalls.erase pendingCallId })

/-- The deferred branch of a dispatch for `call`. -/
def deferTask (runtime : CallRuntime) (call : Nat) (allowCancellation : Bool) : CallRuntime :=
  { runtime with
    tasks := runtime.tasks.insert runtime.createdTasks { serves := call, allowCancellation }
    createdTasks := runtime.createdTasks + 1
    activeCancelableDeferredTasks :=
      if allowCancellation then runtime.activeCancelableDeferredTasks ++ [runtime.createdTasks]
      else runtime.activeCancelableDeferredTasks }

/-- The event loop sees that the task has finished. -/
def completeTask (runtime : CallRuntime) (task : Nat) : CallRuntime :=
  match lockTask runtime.tasks task with
  | none => runtime
  | some state =>
      { runtime with tasks := runtime.tasks.insert task { state with completed := true } }

-----------------------------------------------------------------------------------------
-- Runs, and the cancellations that releases requested
-----------------------------------------------------------------------------------------

/-- A call may also come from a peer, without a handle; any call that has come may be
dispatched to a deferred handler, and promise chains may end at any time.
-/
inductive CallOp where
  | startCall
  | incomingCall
  | dispatch (call : Nat) (allowCancellation : Bool)
  | complete (task : Nat)
  | destroy (task : Nat)
  | await (pendingCallId : UInt32)
  | release (pendingCallId : UInt32) (destroyed : List Nat)

/-- Firing the canceler of a call destroys promises of that call only. -/
def ownTasks (runtime : CallRuntime) (pendingCallId : UInt32) (destroyed : List Nat) : Bool :=
  destroyed.all (fun task =>
    (lockTask runtime.tasks task).all (fun state =>
      runtime.pendingCalls.lookup pendingCallId == some state.serves))

def CallOp.run (runtime : CallRuntime) : CallOp → Option CallRuntime
  | .startCall => (addPendingCall runtime).map Prod.snd
  | .incomingCall => some { runtime with createdCalls := runtime.createdCalls + 1 }
  | .dispatch call allowCancellation =>
      if call < runtime.createdCalls then some (deferTask runtime call allowCancellation)
      else none
  | .complete task => some (completeTask runtime task)
  | .destroy task => some { runtime with tasks := destroyTask runtime.tasks task }
  | .await pendingCallId => some (takePendingCall runtime pendingCallId).2
  | .release pendingCallId destroyed =>
      if ownTasks runtime pendingCallId destroyed then
        some (releasePendingCall runtime pendingCallId destroyed).2
      else none

/-- The tasks whose cancellation was requested between two states. -/
def newlyRequested (before after : Table Nat DeferredLeanTaskState) : List Nat :=
  before.keys.filter (fun task =>
    (before.lookup task).any (fun state => !state.cancellationRequested)
      && (after.lookup task).any (·.cancellationRequested))

/-- A runtime with what its releases did: the released call, and the call served by each
task whose cancellation the release requested.
-/
structure CallHistory where
  runtime : CallRuntime := {}
  requests : List (Nat × Nat) := []

/-- The requests that releasing a handle makes. -/
def releaseRequests (runtime : CallRuntime) (pendingCallId : UInt32) (destroyed : List Nat)
    : List (Nat × Nat) :=
  match runtime.pendingCalls.lookup pendingCallId with
  | none => []
  | some released =>
      (newlyRequested runtime.tasks
        (releasePendingCall runtime pendingCallId destroyed).2.tasks).filterMap
        (fun task => (runtime.tasks.lookup task).map (fun state => (released, state.serves)))

def CallHistory.next (history : CallHistory) (op : CallOp) : Option CallHistory :=
  (op.run history.runtime).map (fun runtime =>
    { runtime := runtime
      requests :=
        match op with
        | .release pendingCallId destroyed =>
            history.requests ++ releaseRequests history.runtime pendingCallId destroyed
        | _ => history.requests })

def callHistorySystem : Transition.System CallHistory CallOp :=
  .ofFunction {} CallHistory.next

/-- Whether a queued task would accept a request. -/
def acceptsRequest (tasks : Table Nat DeferredLeanTaskState) (task : Nat) : Bool :=
  (lockTask tasks task).any (fun state => (requestCancellation state).1)

/-- The first queued task that would accept a request serves the released call, or no
queued task would.
-/
def firstServes (runtime : CallRuntime) (pendingCallId : UInt32) : Bool :=
  match runtime.activeCancelableDeferredTasks.find? (acceptsRequest runtime.tasks) with
  | none => true
  | some task =>
      (runtime.tasks.lookup task).any (fun state =>
        runtime.pendingCalls.lookup pendingCallId == some state.serves)

/-- The condition on a step. Releasing an unknown handle does nothing. -/
def CallOp.cancelsOwn (history : CallHistory) : CallOp → Bool
  | .release pendingCallId _ =>
      decide (pendingCallId ∉ history.runtime.pendingCalls)
        || firstServes history.runtime pendingCallId
  | _ => true

/-- A request is accepted exactly when it newly marks the task. -/
theorem requestCancellation_marks (task : DeferredLeanTaskState)
    : (requestCancellation task).2.cancellationRequested
      = (task.cancellationRequested || (requestCancellation task).1) := by
  unfold requestCancellation
  split_ifs <;> simp_all

/-- The queue is popped up to the first task that accepts, by induction on the queue. -/
theorem cancelOneActiveDeferredTask_tasks (tasks : Table Nat DeferredLeanTaskState)
    (queue : List Nat)
    : (cancelOneActiveDeferredTask tasks queue).1
      = match queue.find? (acceptsRequest tasks) with
        | none => tasks
        | some task =>
            match lockTask tasks task with
            | none => tasks
            | some state => tasks.insert task (requestCancellation state).2 := by
  induction queue with
  | nil => rfl
  | cons front rest ih =>
      cases locked : lockTask tasks front with
      | none =>
          have refuses : acceptsRequest tasks front = false := by simp [acceptsRequest, locked]
          simp only [cancelOneActiveDeferredTask, locked, ih, List.find?_cons, refuses]
      | some state =>
          rcases requested : requestCancellation state with ⟨_ | _, marked⟩
          · have refuses : acceptsRequest tasks front = false := by
              simp [acceptsRequest, locked, requested]
            simp only [cancelOneActiveDeferredTask, locked, requested, ih, List.find?_cons, refuses]
          · have accepts : acceptsRequest tasks front = true := by
              simp [acceptsRequest, locked, requested]
            simp only [cancelOneActiveDeferredTask, locked, requested, List.find?_cons, accepts]

/-- Whether a task is there and marked. -/
def isRequested (tasks : Table Nat DeferredLeanTaskState) (task : Nat) : Bool :=
  (tasks.lookup task).any (·.cancellationRequested)

/-- A task can be locked while it is alive. -/
theorem lockTask_eq_some {tasks : Table Nat DeferredLeanTaskState} {task : Nat}
    {state : DeferredLeanTaskState}
    : lockTask tasks task = some state ↔ tasks.lookup task = some state ∧ state.alive = true := by
  simp [lockTask, Option.filter_eq_some_iff]

/-- Requesting the cancellation of a task does not end it. -/
theorem requestCancellation_alive (task : DeferredLeanTaskState)
    : (requestCancellation task).2.alive = task.alive := by
  unfold requestCancellation
  split_ifs <;> rfl

/-- Destroying a task marks it at most, and never unmarks one. -/
theorem isRequested_destroyTask (tasks : Table Nat DeferredLeanTaskState) (task other : Nat)
    : (isRequested tasks other = true → isRequested (destroyTask tasks task) other = true)
      ∧ (isRequested (destroyTask tasks task) other = true →
          isRequested tasks other = true ∨ (other = task ∧ (lockTask tasks other).isSome)) := by
  cases locked : lockTask tasks task with
  | none =>
      simp only [destroyTask, locked]
      exact ⟨id, .inl⟩
  | some state =>
      obtain ⟨found, _⟩ := lockTask_eq_some.mp locked
      rcases eq_or_ne other task with rfl | same
      · simp only [isRequested, destroyTask, locked, found, AList.lookup_insert, Option.any_some,
          requestCancellation_marks, Option.isSome_some, and_true]
        exact ⟨fun marked => by simp [marked], fun _ => .inr trivial⟩
      · simp only [isRequested, destroyTask, locked, AList.lookup_insert_ne same]
        exact ⟨id, .inl⟩

/-- Destroying a task brings none back. -/
theorem lockTask_destroyTask {tasks : Table Nat DeferredLeanTaskState} {task other : Nat}
    (alive : (lockTask (destroyTask tasks task) other).isSome)
    : (lockTask tasks other).isSome := by
  cases locked : lockTask tasks task with
  | none => simpa only [destroyTask, locked] using alive
  | some state =>
      rcases eq_or_ne other task with rfl | same
      · simp [locked]
      · simp only [destroyTask, locked] at alive
        simpa only [lockTask, AList.lookup_insert_ne same] using alive

/-- Destroying a list of tasks, by induction on the list. -/
theorem isRequested_destroyTasks (tasks : Table Nat DeferredLeanTaskState)
    (destroyed : List Nat) (other : Nat)
    : (isRequested tasks other = true →
        isRequested (destroyed.foldl destroyTask tasks) other = true)
      ∧ (isRequested (destroyed.foldl destroyTask tasks) other = true →
          isRequested tasks other = true
          ∨ (other ∈ destroyed ∧ (lockTask tasks other).isSome)) := by
  induction destroyed generalizing tasks with
  | nil => exact ⟨id, .inl⟩
  | cons task rest ih =>
      obtain ⟨keeps, marks⟩ := isRequested_destroyTask tasks task other
      obtain ⟨keepsRest, marksRest⟩ := ih (destroyTask tasks task)
      refine ⟨fun marked => keepsRest (keeps marked), fun marked => ?_⟩
      rcases marksRest marked with marked | ⟨member, alive⟩
      · rcases marks marked with marked | ⟨rfl, alive⟩
        · exact .inl marked
        · exact .inr ⟨List.mem_cons_self, alive⟩
      · exact .inr ⟨List.mem_cons_of_mem _ member, lockTask_destroyTask alive⟩

/-- The task that cancelling one picks is marked, and no other task changes. -/
theorem isRequested_cancelOne (tasks : Table Nat DeferredLeanTaskState) (queue : List Nat)
    (other : Nat)
    : isRequested (cancelOneActiveDeferredTask tasks queue).1 other
        = (isRequested tasks other
          || decide (queue.find? (acceptsRequest tasks) = some other))
      ∧ (lockTask (cancelOneActiveDeferredTask tasks queue).1 other).isSome
        = (lockTask tasks other).isSome := by
  rw [cancelOneActiveDeferredTask_tasks]
  cases picked : queue.find? (acceptsRequest tasks) with
  | none => simp
  | some task =>
      have accepts := List.find?_some picked
      cases locked : lockTask tasks task with
      | none => simp [acceptsRequest, locked] at accepts
      | some state =>
          obtain ⟨found, alive⟩ := lockTask_eq_some.mp locked
          simp only [acceptsRequest, locked, Option.any_some] at accepts
          simp only [locked]
          rcases eq_or_ne task other with rfl | same
          · simp [isRequested, lockTask, found, alive, requestCancellation_marks, accepts,
              requestCancellation_alive]
          · simp [isRequested, lockTask, AList.lookup_insert_ne (Ne.symm same), same]

/-- The served calls of the tasks that a release marks are all the released one. -/
def CancelsOwn (runtime : CallRuntime) (pendingCallId : UInt32) (destroyed : List Nat) : Prop :=
  ∀ request ∈ releaseRequests runtime pendingCallId destroyed, request.2 = request.1

/-- The tasks whose cancellation is requested now and was not before. -/
theorem mem_newlyRequested {before after : Table Nat DeferredLeanTaskState} {task : Nat}
    : task ∈ newlyRequested before after
      ↔ ∃ state, before.lookup task = some state ∧ state.cancellationRequested = false
          ∧ isRequested after task = true := by
  simp only [newlyRequested, List.mem_filter, Bool.and_eq_true, isRequested]
  cases found : before.lookup task with
  | none => simp
  | some state =>
      have present : task ∈ before.keys :=
        AList.mem_keys.mp (AList.lookup_isSome.mp (by simp [found]))
      simp [present]

/-- Releasing a live call requests cancellation of its own tasks only, exactly when the first
queued task that would accept a request is one of them or there is none.
-/
theorem cancelsOwn_iff {runtime : CallRuntime} {pendingCallId : UInt32} {destroyed : List Nat}
    {call : Nat} (live : runtime.pendingCalls.lookup pendingCallId = some call)
    (own : ownTasks runtime pendingCallId destroyed = true)
    : CancelsOwn runtime pendingCallId destroyed ↔ firstServes runtime pendingCallId = true := by
  have marks (task : Nat) := isRequested_cancelOne runtime.tasks
    runtime.activeCancelableDeferredTasks task
  have release : (releasePendingCall runtime pendingCallId destroyed).2.tasks
      = destroyed.foldl destroyTask (cancelOneActiveDeferredTask runtime.tasks
          runtime.activeCancelableDeferredTasks).1 := by
    simp only [releasePendingCall, live]
  simp only [CancelsOwn, releaseRequests, live, List.mem_filterMap, Option.map_eq_some_iff,
    mem_newlyRequested, release]
  constructor
  · intro cancels
    unfold firstServes
    cases picked : runtime.activeCancelableDeferredTasks.find? (acceptsRequest runtime.tasks) with
    | none => rfl
    | some task =>
        have accepts := List.find?_some picked
        cases locked : lockTask runtime.tasks task with
        | none => simp [acceptsRequest, locked] at accepts
        | some state =>
            obtain ⟨found, _⟩ := lockTask_eq_some.mp locked
            simp only [acceptsRequest, locked, Option.any_some] at accepts
            have unmarked : state.cancellationRequested = false := by
              unfold requestCancellation at accepts
              split_ifs at accepts with _ requested
              simpa using requested
            have marked := (isRequested_destroyTasks _ destroyed task).1
              ((marks task).1.trans (by simp [picked]))
            have served := cancels (call, state.serves)
              ⟨task, ⟨state, found, unmarked, marked⟩, state, found, rfl⟩
            simpa [found, live] using served.symm
  · rintro first _ ⟨task, ⟨state, found, unmarked, marked⟩, same, also, rfl⟩
    obtain rfl : state = same := Option.some.inj (found.symm.trans also)
    rcases (isRequested_destroyTasks _ _ _).2 marked with marked | ⟨member, alive⟩
    · rw [(marks task).1, Bool.or_eq_true, decide_eq_true_eq] at marked
      rcases marked with old | picked
      · simp [isRequested, found, unmarked] at old
      · simp only [firstServes, picked, found, live, Option.any_some, beq_iff_eq,
          Option.some.injEq] at first
        exact first.symm
    · rw [(marks task).2] at alive
      obtain ⟨locked, isLocked⟩ := Option.isSome_iff_exists.mp alive
      obtain rfl : state = locked :=
        Option.some.inj (found.symm.trans (lockTask_eq_some.mp isLocked).1)
      have serves := List.all_eq_true.mp own task member
      simp only [isLocked, Option.all_some, live, beq_iff_eq, Option.some.injEq] at serves
      exact serves.symm

/-- In every run whose releases meet the condition, releasing a call has requested
cancellation of no task but its own; and a release in any reachable state keeps to its own
tasks exactly when it meets the condition.
-/
theorem release_cancels_own {history : CallHistory}
    : ((callHistorySystem.guard (fun history op => op.cancelsOwn history = true)).Reachable
          history →
        ∀ request ∈ history.requests, request.2 = request.1)
      ∧ ∀ pendingCallId destroyed, pendingCallId ∈ history.runtime.pendingCalls →
          ownTasks history.runtime pendingCallId destroyed = true →
          (CancelsOwn history.runtime pendingCallId destroyed
            ↔ (CallOp.release pendingCallId destroyed).cancelsOwn history = true) := by
  constructor
  · intro guarded
    refine guarded.invariant
      (fun history => ∀ request ∈ history.requests, request.2 = request.1) ?_ ?_
    · rintro first rfl
      simp
    · rintro before op after ⟨allowed, step⟩ holds
      obtain ⟨runtime, ran, rfl⟩ := Option.map_eq_some_iff.mp step
      cases op with
      | release pendingCallId destroyed =>
          intro request member
          rcases List.mem_append.mp member with old | new
          · exact holds request old
          cases live : before.runtime.pendingCalls.lookup pendingCallId with
          | none => simp [releaseRequests, live] at new
          | some call =>
              have present : pendingCallId ∈ before.runtime.pendingCalls :=
                AList.lookup_isSome.mp (by simp [live])
              simp only [CallOp.run, Option.ite_none_right_eq_some] at ran
              have first : firstServes before.runtime pendingCallId = true := by
                simpa [CallOp.cancelsOwn, present] using allowed
              exact (cancelsOwn_iff live ran.1).mpr first request new
      | startCall | incomingCall | dispatch | complete | destroy | await => exact holds
  · intro pendingCallId destroyed present own
    obtain ⟨call, live⟩ := Option.isSome_iff_exists.mp (AList.lookup_isSome.mpr present)
    simp only [CallOp.cancelsOwn, present, not_true_eq_false, decide_false, Bool.false_or]
    exact cancelsOwn_iff live own

/-- Three calls overlap; the first is awaited when its task has finished, then the second is
released, which destroys its task.
-/
theorem release_cancels_own_overlapping
    : ∃ history,
        history.requests = [(1, 1)]
        ∧ (∀ request ∈ history.requests, request.2 = request.1)
        ∧ (CancelsOwn history.runtime 3 []
            ↔ (CallOp.release 3 []).cancelsOwn history = true) := by
  let operations : List CallOp :=
    [.startCall, .startCall, .startCall, .dispatch 0 true, .dispatch 1 true, .dispatch 2 true,
      .complete 0, .await 1, .release 2 [1]]
  let checks (history : CallHistory) : Bool :=
    decide (history.requests = [(1, 1)]) && decide (3 ∈ history.runtime.pendingCalls)
  have replayed : ∃ history,
      (callHistorySystem.guard (fun history op => op.cancelsOwn history = true)).Reachable
        history
      ∧ checks history = true :=
    Transition.exists_guarded_of_replay _ operations checks (by decide)
  obtain ⟨history, reached, checked⟩ := replayed
  simp only [checks, Bool.and_eq_true, decide_eq_true_eq] at checked
  exact ⟨history, checked.1, release_cancels_own.1 reached,
    release_cancels_own.2 3 [] checked.2 rfl⟩

/-- Releasing the second of two overlapping calls cancels the task of the first. -/
theorem release_cancels_first_queued
    : ∃ history, callHistorySystem.Reachable history
        ∧ ¬ ∀ request ∈ history.requests, request.2 = request.1 := by
  let operations : List CallOp :=
    [.startCall, .startCall, .dispatch 0 true, .dispatch 1 true, .release 2 []]
  let checks (history : CallHistory) : Bool := decide (history.requests = [(1, 0)])
  have replayed : ∃ history, callHistorySystem.Reachable history ∧ checks history = true :=
    Transition.exists_reachable_of_replay operations checks (by decide)
  obtain ⟨history, reached, checked⟩ := replayed
  refine ⟨history, reached, fun own => ?_⟩
  have wrong := own (1, 0) (by simp [of_decide_eq_true checked])
  simp at wrong

end Capnp.Rpc
