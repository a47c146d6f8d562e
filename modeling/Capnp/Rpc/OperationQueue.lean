import Capnp.Library.Ledger
import Capnp.Library.Transition
import Capnp.Rpc.OperationKind

/-! The queue between the clients and the worker thread of a runtime, the KJ tasks that
outlive an operation's turn in it, and how each operation's completion is answered.
-/

namespace Capnp.Rpc

/-- What a client reads from its completion. -/
structure Answer where
  ok : Bool
  message : Option String
deriving DecidableEq

/-- An `Except` object of one field, read by its tag: `error` is 0 and `ok` is 1. -/
def readExcept (tag : Nat) (message : Option String) : Answer where
  ok := decide (tag = 1)
  message := message

def completeAsyncUnitSuccess : Answer := readExcept 0 none

def completeAsyncUnitFailure (message : String) : Answer := readExcept 1 (some message)

/-- All completions but the one of `pumpAsync` carry a flag. -/
def completeSuccess (kind : OperationKind) : Answer :=
  if kind = .pumpAsync then completeAsyncUnitSuccess else { ok := true, message := none }

def completeFailure (kind : OperationKind) (message : String) : Answer :=
  if kind = .pumpAsync then completeAsyncUnitFailure message
  else { ok := false, message := some message }

-----------------------------------------------------------------------------------------
-- The runtime's queue and its worker
-----------------------------------------------------------------------------------------

/-- Completions are numbered in the order they are made. -/
structure QueuedOperation where
  completion : Nat
  kind : OperationKind
deriving DecidableEq

/-- An exception that leaves `run` terminates the process. -/
inductive WorkerPhase where
  | running
  | ended
  | terminated
deriving DecidableEq

/-- The queue and the KJ task set. `completed` logs the answers; `succeeded` and `lost` are
ghosts: the operations whose processing succeeded, and those destroyed without an answer.
-/
structure OperationRuntime where
  queue : List QueuedOperation := []
  stopping : Bool := false
  worker : WorkerPhase := .running
  tasks : List QueuedOperation := []
  created : Nat := 0
  completed : List (Nat × Answer) := []
  succeeded : List Nat := []
  lost : List Nat := []

def enqueueWithCompletion (kind : OperationKind) (runtime : OperationRuntime) : OperationRuntime :=
  if runtime.stopping then
    { runtime with
      created := runtime.created + 1
      completed :=
        (runtime.created, completeFailure kind "Capnp.Rpc runtime is shutting down")
          :: runtime.completed }
  else
    { runtime with
      created := runtime.created + 1
      queue := runtime.queue ++ [{ completion := runtime.created, kind := kind }] }

/-- How the processing of an operation, or of the promise it left, ends. -/
inductive Processing where
  | returns
  | throws (message : String)
deriving DecidableEq

def QueuedOperation.complete (operation : QueuedOperation) (result : Processing)
    (runtime : OperationRuntime) : OperationRuntime :=
  match result with
  | .returns =>
      { runtime with
        completed := (operation.completion, completeSuccess operation.kind) :: runtime.completed
        succeeded := operation.completion :: runtime.succeeded }
  | .throws message =>
      { runtime with
        completed :=
          (operation.completion, completeFailure operation.kind message) :: runtime.completed }

/-- Completing an operation creates none. -/
@[simp] theorem QueuedOperation.complete_created (operation : QueuedOperation)
    (result : Processing) (runtime : OperationRuntime)
    : (operation.complete result runtime).created = runtime.created := by
  cases result <;> rfl

/-- It leaves the queue. -/
@[simp] theorem QueuedOperation.complete_queue (operation : QueuedOperation) (result : Processing)
    (runtime : OperationRuntime)
    : (operation.complete result runtime).queue = runtime.queue := by
  cases result <;> rfl

/-- It leaves the scheduled tasks. -/
@[simp] theorem QueuedOperation.complete_tasks (operation : QueuedOperation) (result : Processing)
    (runtime : OperationRuntime)
    : (operation.complete result runtime).tasks = runtime.tasks := by
  cases result <;> rfl

/-- It leaves the worker. -/
@[simp] theorem QueuedOperation.complete_worker (operation : QueuedOperation)
    (result : Processing) (runtime : OperationRuntime)
    : (operation.complete result runtime).worker = runtime.worker := by
  cases result <;> rfl

/-- It loses no completion. -/
@[simp] theorem QueuedOperation.complete_lost (operation : QueuedOperation) (result : Processing)
    (runtime : OperationRuntime)
    : (operation.complete result runtime).lost = runtime.lost := by
  cases result <;> rfl

/-- One turn of the loop in `run`. -/
def QueuedOperation.process (operation : QueuedOperation) (result : Processing)
    (runtime : OperationRuntime) : OperationRuntime :=
  if operation.kind ∈ runChain then
    if operation.kind ∈ scheduledKinds ∧ result = .returns then
      { runtime with tasks := operation :: runtime.tasks }
    else operation.complete result runtime
  else { runtime with lost := operation.completion :: runtime.lost }

/-- The assertion at the end of the chain leaves the remaining operations unanswered. -/
def failOperations (message : String) : List QueuedOperation → OperationRuntime → OperationRuntime
  | [], runtime => runtime
  | operation :: rest, runtime =>
      if operation.kind ∈ failChain then
        failOperations message rest (operation.complete (.throws message) runtime)
      else
        { runtime with
          worker := .terminated
          lost := (operation :: rest).map (·.completion) ++ runtime.lost }

/-- `failPendingCalls`, the last thing the worker does. -/
def failPendingCalls (message : String) (runtime : OperationRuntime) : OperationRuntime :=
  failOperations message runtime.queue { runtime with queue := [], worker := .ended }

/-- The steps of clients, of the worker and of its event loop. -/
inductive OperationStep where
  | enqueue (kind : OperationKind)
  | shutdown
  | runFront (result : Processing)
  | finishTask (operation : QueuedOperation) (result : Processing)
  | exitLoop
  | loopThrows (message : String)

/-- An exception that ends the event loop destroys the task set with its continuations. -/
def OperationStep.run (runtime : OperationRuntime) : OperationStep → Option OperationRuntime
  | .enqueue kind =>
      if runtime.worker = .terminated then none else some (enqueueWithCompletion kind runtime)
  | .shutdown => some { runtime with stopping := true }
  | .runFront result =>
      match runtime.worker, runtime.queue with
      | .running, operation :: rest =>
          some (operation.process result { runtime with queue := rest })
      | _, _ => none
  | .finishTask operation result =>
      if runtime.worker = .running ∧ operation ∈ runtime.tasks then
        some (operation.complete result
          { runtime with tasks := runtime.tasks.erase operation })
      else none
  | .exitLoop =>
      if runtime.worker = .running ∧ runtime.stopping = true ∧ runtime.queue = []
          ∧ runtime.tasks = [] then
        some (failPendingCalls "Capnp.Rpc runtime shut down" runtime)
      else none
  | .loopThrows message =>
      if runtime.worker = .running then
        some (failPendingCalls message
          { runtime with
            tasks := []
            lost := runtime.tasks.map (·.completion) ++ runtime.lost })
      else none

/-- Runs start after `setupAsyncIo`: a runtime that fails before it is never published. -/
def operationSystem : Transition.System OperationRuntime OperationStep :=
  .ofFunction {} OperationStep.run

-----------------------------------------------------------------------------------------
-- Every completion is somewhere
-----------------------------------------------------------------------------------------

def completionsOf (operations : List QueuedOperation) : List Nat :=
  operations.map (·.completion)

/-- The completions in the queue, in tasks, answered and lost. -/
def OperationRuntime.entries (runtime : OperationRuntime) : List Nat :=
  completionsOf runtime.queue
    ++ (completionsOf runtime.tasks ++ (runtime.completed.map Prod.fst ++ runtime.lost))

/-- What every run keeps, while the worker holds the completions `inHand`. -/
structure OperationRuntime.Accounted (inHand : List Nat) (runtime : OperationRuntime) : Prop where
  ledger : Ledger runtime.created (inHand ++ runtime.entries)
  answered : ∀ number ∈ runtime.succeeded, number ∈ runtime.completed.map Prod.fst

namespace OperationRuntime.Accounted

variable {inHand rest : List Nat} {runtime : OperationRuntime} {operation : QueuedOperation}

/-- A completion in hand has no answer yet. -/
theorem unanswered (accounted : runtime.Accounted (operation.completion :: rest))
    : operation.completion ∉ runtime.completed.map Prod.fst := by
  have fresh : operation.completion ∉ rest ++ runtime.entries :=
    (List.nodup_cons.mp accounted.ledger.nodup).1
  intro answered
  apply fresh
  simp only [entries, List.mem_append, answered, true_or, or_true]

/-- Answering moves a completion to the answered ones. -/
theorem perm_entries_complete (result : Processing)
    : (operation.complete result runtime).entries.Perm
        (operation.completion :: runtime.entries) := by
  have answered
      : (operation.complete result runtime).completed.map Prod.fst
        = operation.completion :: runtime.completed.map Prod.fst := by
    cases result <;> rfl
  simp only [entries, answered, QueuedOperation.complete_queue, QueuedOperation.complete_tasks,
    QueuedOperation.complete_lost, List.perm_iff_count, List.count_append, List.count_cons]
  intro number
  omega

/-- Answering an operation takes its completion out of the worker's hands. -/
theorem complete (accounted : runtime.Accounted (operation.completion :: rest))
    (result : Processing)
    : (operation.complete result runtime).Accounted rest := by
  constructor
  · rw [QueuedOperation.complete_created]
    refine accounted.ledger.move ?_
    exact ((perm_entries_complete result).append_left rest).trans List.perm_middle
  · cases result with
    | returns =>
        simp only [QueuedOperation.complete, List.map_cons, List.mem_cons]
        exact fun number => Or.imp_right (accounted.answered number)
    | throws message =>
        exact fun number succeeded => List.mem_cons_of_mem _ (accounted.answered number succeeded)

/-- A turn of the loop completes, schedules or loses its operation. -/
theorem process (accounted : runtime.Accounted (operation.completion :: rest))
    (result : Processing)
    : (operation.process result runtime).Accounted rest := by
  unfold QueuedOperation.process
  split_ifs with covered scheduled
  · refine ⟨accounted.ledger.move ?_, accounted.answered⟩
    simp only [entries, completionsOf, List.map_cons, List.perm_iff_count, List.count_append,
      List.count_cons]
    intro number
    omega
  · exact accounted.complete result
  · refine ⟨accounted.ledger.move ?_, accounted.answered⟩
    simp only [entries, List.perm_iff_count, List.count_append, List.count_cons]
    intro number
    omega

/-- Failing the operations in hand, by induction on them. -/
theorem failOperations {operations : List QueuedOperation} (message : String)
    (accounted : runtime.Accounted (completionsOf operations))
    : (Rpc.failOperations message operations runtime).Accounted [] := by
  induction operations generalizing runtime with
  | nil => exact accounted
  | cons operation rest ih =>
      unfold Rpc.failOperations
      split_ifs with covered
      · exact ih (accounted.complete _)
      · refine ⟨accounted.ledger.move ?_, accounted.answered⟩
        simp only [entries, completionsOf, List.perm_iff_count, List.count_append,
          List.nil_append]
        intro number
        omega

/-- Failing what is queued accounts for all of it. -/
theorem failPendingCalls (accounted : runtime.Accounted []) (message : String)
    : (Rpc.failPendingCalls message runtime).Accounted [] := by
  refine failOperations message ⟨accounted.ledger.move ?_, accounted.answered⟩
  exact .refl _

/-- A new operation is accounted for. -/
theorem enqueue (accounted : runtime.Accounted []) (kind : OperationKind)
    : (enqueueWithCompletion kind runtime).Accounted [] := by
  unfold enqueueWithCompletion
  split_ifs with stopping
  · refine ⟨accounted.ledger.issue.move ?_, ?_⟩
    · simp only [entries, List.map_cons, List.perm_iff_count, List.count_append, List.count_cons,
        List.nil_append]
      intro number
      omega
    · exact fun number succeeded => List.mem_cons_of_mem _ (accounted.answered number succeeded)
  · refine ⟨accounted.ledger.issue.move ?_, accounted.answered⟩
    simp only [entries, completionsOf, List.map_append, List.map_cons, List.map_nil,
      List.perm_iff_count, List.count_append, List.count_cons, List.nil_append, List.count_nil]
    intro number
    omega

/-- Taking an operation out of the queue leaves its completion to be accounted for. -/
theorem takeFront {operations : List QueuedOperation} (accounted : runtime.Accounted [])
    (queued : runtime.queue = operation :: operations)
    : { runtime with queue := operations }.Accounted [operation.completion] := by
  refine ⟨accounted.ledger.move ?_, accounted.answered⟩
  simp only [entries, queued, completionsOf, List.map_cons]
  exact .refl _

/-- So does taking a scheduled task. -/
theorem takeTask (accounted : runtime.Accounted []) (scheduled : operation ∈ runtime.tasks)
    : { runtime with tasks := runtime.tasks.erase operation }.Accounted
        [operation.completion] := by
  refine ⟨accounted.ledger.move ?_, accounted.answered⟩
  have taken := ((List.perm_cons_erase scheduled).map (·.completion)).count_eq
  simp only [List.map_cons, List.count_cons] at taken
  simp only [entries, completionsOf, List.perm_iff_count, List.count_append, List.count_cons,
    List.nil_append, List.count_nil, taken]
  intro number
  omega

/-- Dropping the tasks loses their completions, which are accounted for as lost. -/
theorem dropTasks (accounted : runtime.Accounted [])
    : { runtime with
        tasks := []
        lost := runtime.tasks.map (·.completion) ++ runtime.lost : OperationRuntime }.Accounted
        [] := by
  refine ⟨accounted.ledger.move ?_, accounted.answered⟩
  simp only [entries, completionsOf, List.map_nil, List.perm_iff_count, List.count_append,
    List.nil_append]
  intro number
  omega

/-- Every step of the clients, the worker and the event loop. -/
theorem step {after : OperationRuntime} {label : OperationStep} (accounted : runtime.Accounted [])
    (ran : label.run runtime = some after)
    : after.Accounted [] := by
  cases label with
  | enqueue kind =>
      simp only [OperationStep.run, Option.ite_none_left_eq_some, Option.some.injEq] at ran
      exact ran.2 ▸ accounted.enqueue kind
  | shutdown =>
      obtain rfl := Option.some.inj ran
      exact ⟨accounted.ledger, accounted.answered⟩
  | runFront result =>
      simp only [OperationStep.run] at ran
      split at ran
      next operation rest _ queued =>
        obtain rfl := Option.some.inj ran
        exact (accounted.takeFront queued).process result
      next => simp at ran
  | finishTask operation result =>
      simp only [OperationStep.run, Option.ite_none_right_eq_some, Option.some.injEq] at ran
      obtain ⟨⟨_, scheduled⟩, rfl⟩ := ran
      exact (accounted.takeTask scheduled).complete result
  | exitLoop =>
      simp only [OperationStep.run, Option.ite_none_right_eq_some, Option.some.injEq] at ran
      exact ran.2 ▸ accounted.failPendingCalls _
  | loopThrows message =>
      simp only [OperationStep.run, Option.ite_none_right_eq_some, Option.some.injEq] at ran
      obtain ⟨_, rfl⟩ := ran
      exact accounted.dropTasks.failPendingCalls message

end OperationRuntime.Accounted

/-- In every run each completion handed out is in exactly one place. -/
theorem reachable_accounted {runtime : OperationRuntime}
    (reached : operationSystem.Reachable runtime)
    : runtime.Accounted [] := by
  refine reached.invariant (OperationRuntime.Accounted []) ?_ (fun ran before => before.step ran)
  rintro first rfl
  exact ⟨.start, by simp⟩

/-- Whatever the steps, no completion is answered twice. -/
theorem answered_at_most_once {runtime : OperationRuntime}
    (reached : operationSystem.Reachable runtime)
    : (runtime.completed.map Prod.fst).Nodup := by
  have entries := (reachable_accounted reached).ledger.nodup
  simp only [List.nil_append, OperationRuntime.entries, ← List.append_assoc] at entries
  exact (List.nodup_append.mp (List.nodup_append.mp entries).1).2.1

-----------------------------------------------------------------------------------------
-- Answered exactly once
-----------------------------------------------------------------------------------------

/-- No completion is answered twice, none is forgotten, and the answer is right. While the
worker runs, an operation may still wait in the queue or in a task.
-/
structure OperationRuntime.AnsweredOnce (runtime : OperationRuntime) : Prop where
  atMostOnce : (runtime.completed.map Prod.fst).Nodup
  atLeastOnce
    : ∀ number < runtime.created,
        number ∈ runtime.completed.map Prod.fst
        ∨ (runtime.worker = .running
          ∧ number ∈ completionsOf runtime.queue ++ completionsOf runtime.tasks)
  ok_iff : ∀ entry ∈ runtime.completed, entry.2.ok = true ↔ entry.1 ∈ runtime.succeeded

instance (runtime : OperationRuntime) : Decidable runtime.AnsweredOnce :=
  decidable_of_iff
    ((runtime.completed.map Prod.fst).Nodup
      ∧ (∀ number < runtime.created,
          number ∈ runtime.completed.map Prod.fst
          ∨ (runtime.worker = .running
            ∧ number ∈ completionsOf runtime.queue ++ completionsOf runtime.tasks))
      ∧ ∀ entry ∈ runtime.completed, entry.2.ok = true ↔ entry.1 ∈ runtime.succeeded)
    ⟨fun ⟨once, least, ok⟩ => ⟨once, least, ok⟩,
      fun answered => ⟨answered.atMostOnce, answered.atLeastOnce, answered.ok_iff⟩⟩

/-- The condition on a step. A client does not ask for an asynchronous pump, nor queues an
operation when the worker has ended without the runtime stopping; and the event loop does
not end by an exception while a task waits or the queue holds a kind that the failing chain
misses.
-/
def OperationStep.answersAll (runtime : OperationRuntime) : OperationStep → Bool
  | .enqueue kind =>
      decide (kind ≠ .pumpAsync ∧ (runtime.worker = .running ∨ runtime.stopping = true))
  | .loopThrows _ =>
      decide (runtime.tasks = [] ∧ ∀ operation ∈ runtime.queue, operation.kind ∈ failChain)
  | .shutdown | .runFront _ | .finishTask _ _ | .exitLoop => true

/-- What the steps that meet the condition keep besides the accounts. -/
structure OperationRuntime.Faithful (runtime : OperationRuntime) : Prop where
  kept : runtime.lost = []
  flagged : ∀ operation ∈ runtime.queue ++ runtime.tasks, operation.kind ≠ .pumpAsync
  idle : runtime.worker ≠ .running → runtime.queue ++ runtime.tasks = []
  ok_iff : ∀ entry ∈ runtime.completed, entry.2.ok = true ↔ entry.1 ∈ runtime.succeeded

namespace OperationRuntime.Faithful

variable {rest : List Nat} {runtime : OperationRuntime} {operation : QueuedOperation}

/-- A flagged operation without an answer is answered as it ended. -/
theorem complete (faithful : runtime.Faithful)
    (accounted : runtime.Accounted (operation.completion :: rest))
    (flagged : operation.kind ≠ .pumpAsync) (result : Processing)
    : (operation.complete result runtime).Faithful := by
  have unanswered := accounted.unanswered
  refine {
    kept := by simpa using faithful.kept
    flagged := by simpa using faithful.flagged
    idle := by simpa using faithful.idle
    ok_iff := ?_
  }
  intro entry member
  cases result with
  | returns =>
      rcases List.mem_cons.mp member with rfl | old
      · simp [QueuedOperation.complete, completeSuccess, flagged]
      · have different : entry.1 ≠ operation.completion := by
          intro same
          exact unanswered (same ▸ List.mem_map_of_mem old)
        simpa [QueuedOperation.complete, different] using faithful.ok_iff entry old
  | throws message =>
      rcases List.mem_cons.mp member with rfl | old
      · have failed : operation.completion ∉ runtime.succeeded :=
          fun succeeded => unanswered (accounted.answered _ succeeded)
        simp [QueuedOperation.complete, completeFailure, flagged, failed]
      · exact faithful.ok_iff entry old

/-- Failing operations that the chain covers answers them all, by induction on them. -/
theorem failOperations {operations : List QueuedOperation} (message : String)
    (faithful : runtime.Faithful) (accounted : runtime.Accounted (completionsOf operations))
    (covered : ∀ operation ∈ operations, operation.kind ∈ failChain)
    (flagged : ∀ operation ∈ operations, operation.kind ≠ .pumpAsync)
    : (Rpc.failOperations message operations runtime).Faithful := by
  induction operations generalizing runtime with
  | nil => exact faithful
  | cons operation rest ih =>
      obtain ⟨first, others⟩ := List.forall_mem_cons.mp covered
      obtain ⟨firstFlagged, othersFlagged⟩ := List.forall_mem_cons.mp flagged
      simp only [Rpc.failOperations, first, if_true]
      exact ih (faithful.complete accounted firstFlagged _) (accounted.complete _) others
        othersFlagged

/-- The worker ends with nothing left when no task waits and the chain covers the queue. -/
theorem failPendingCalls (faithful : runtime.Faithful) (accounted : runtime.Accounted [])
    (noTasks : runtime.tasks = [])
    (covered : ∀ operation ∈ runtime.queue, operation.kind ∈ failChain) (message : String)
    : (Rpc.failPendingCalls message runtime).Faithful := by
  apply failOperations message
  · exact {
      kept := faithful.kept
      flagged := by simp [noTasks]
      idle := by simp [noTasks]
      ok_iff := faithful.ok_iff
    }
  · exact ⟨accounted.ledger.move (.refl _), accounted.answered⟩
  · exact covered
  · exact fun operation queued => faithful.flagged operation (List.mem_append_left _ queued)

theorem enqueue (faithful : runtime.Faithful) (accounted : runtime.Accounted [])
    {kind : OperationKind} (flagged : kind ≠ .pumpAsync)
    (accepting : runtime.worker = .running ∨ runtime.stopping = true)
    : (enqueueWithCompletion kind runtime).Faithful := by
  unfold enqueueWithCompletion
  split_ifs with stopping
  · refine ⟨faithful.kept, faithful.flagged, faithful.idle, ?_⟩
    intro entry member
    rcases List.mem_cons.mp member with rfl | old
    · have unused : runtime.created ∉ runtime.succeeded := by
        intro succeeded
        have entered : runtime.created ∈ [] ++ runtime.entries := by
          simp only [entries, List.mem_append, accounted.answered _ succeeded, true_or, or_true]
        exact absurd (accounted.ledger.mem_iff.mp entered) (lt_irrefl _)
      simp [completeFailure, flagged, unused]
    · exact faithful.ok_iff entry old
  · have running : runtime.worker = .running := accepting.resolve_right stopping
    refine ⟨faithful.kept, ?_, fun ended => absurd running ended, faithful.ok_iff⟩
    intro operation member
    rw [List.append_assoc, List.mem_append, List.singleton_append, List.mem_cons] at member
    rcases member with queued | rfl | scheduled
    · exact faithful.flagged operation (List.mem_append_left _ queued)
    · exact flagged
    · exact faithful.flagged operation (List.mem_append_right _ scheduled)

/-- Every alternative is tested for in the loop, so a turn completes or schedules. -/
theorem process (faithful : runtime.Faithful)
    (accounted : runtime.Accounted (operation.completion :: rest))
    (running : runtime.worker = .running) (flagged : operation.kind ≠ .pumpAsync)
    (result : Processing)
    : (operation.process result runtime).Faithful := by
  simp only [QueuedOperation.process, mem_runChain, if_true]
  split_ifs with scheduled
  · refine ⟨faithful.kept, ?_, fun ended => absurd running ended, faithful.ok_iff⟩
    intro other member
    rcases List.mem_append.mp member with queued | scheduled
    · exact faithful.flagged other (List.mem_append_left _ queued)
    · rcases List.mem_cons.mp scheduled with rfl | old
      · exact flagged
      · exact faithful.flagged other (List.mem_append_right _ old)
  · exact faithful.complete accounted flagged result

/-- Every step that meets the condition. -/
theorem step {after : OperationRuntime} {label : OperationStep} (faithful : runtime.Faithful)
    (accounted : runtime.Accounted []) (allowed : label.answersAll runtime = true)
    (ran : label.run runtime = some after)
    : after.Faithful := by
  cases label with
  | enqueue kind =>
      simp only [OperationStep.run, Option.ite_none_left_eq_some, Option.some.injEq] at ran
      obtain ⟨flagged, accepting⟩ := of_decide_eq_true allowed
      exact ran.2 ▸ faithful.enqueue accounted flagged accepting
  | shutdown =>
      obtain rfl := Option.some.inj ran
      exact ⟨faithful.kept, faithful.flagged, faithful.idle, faithful.ok_iff⟩
  | runFront result =>
      simp only [OperationStep.run] at ran
      split at ran
      next operation rest running queued =>
        obtain rfl := Option.some.inj ran
        have fewer : rest ++ runtime.tasks ⊆ runtime.queue ++ runtime.tasks := by
          simp [queued]
        apply process
        · exact ⟨faithful.kept, fun other member => faithful.flagged other (fewer member),
            fun ended => absurd running ended, faithful.ok_iff⟩
        · exact accounted.takeFront queued
        · exact running
        · exact faithful.flagged operation (by simp [queued])
      next => simp at ran
  | finishTask operation result =>
      simp only [OperationStep.run, Option.ite_none_right_eq_some, Option.some.injEq] at ran
      obtain ⟨⟨running, scheduled⟩, rfl⟩ := ran
      have fewer : runtime.queue ++ runtime.tasks.erase operation
          ⊆ runtime.queue ++ runtime.tasks :=
        ((List.Sublist.refl _).append List.erase_sublist).subset
      apply complete
      · exact ⟨faithful.kept, fun other member => faithful.flagged other (fewer member),
          fun ended => absurd running ended, faithful.ok_iff⟩
      · exact accounted.takeTask scheduled
      · exact faithful.flagged operation (List.mem_append_right _ scheduled)
  | exitLoop =>
      simp only [OperationStep.run, Option.ite_none_right_eq_some, Option.some.injEq] at ran
      obtain ⟨⟨_, _, empty, noTasks⟩, rfl⟩ := ran
      exact faithful.failPendingCalls accounted noTasks (by simp [empty]) _
  | loopThrows message =>
      simp only [OperationStep.run, Option.ite_none_right_eq_some, Option.some.injEq] at ran
      obtain ⟨noTasks, covered⟩ := of_decide_eq_true allowed
      obtain ⟨running, rfl⟩ := ran
      apply failPendingCalls
      · exact ⟨by simp [noTasks, faithful.kept], by simpa [noTasks] using faithful.flagged,
          fun ended => absurd running ended, faithful.ok_iff⟩
      · exact accounted.dropTasks
      · rfl
      · exact covered

/-- With everything accounted for and nothing lost, every completion is answered once. -/
theorem answeredOnce (faithful : runtime.Faithful) (accounted : runtime.Accounted [])
    : runtime.AnsweredOnce := by
  have ledger : Ledger runtime.created
      (completionsOf runtime.queue ++ (completionsOf runtime.tasks
        ++ runtime.completed.map Prod.fst)) := by
    simpa [entries, faithful.kept] using accounted.ledger
  refine {
    atMostOnce := (List.nodup_append.mp (List.nodup_append.mp ledger.nodup).2.1).2.1
    atLeastOnce := ?_
    ok_iff := faithful.ok_iff
  }
  intro number issued
  have entered := ledger.mem_iff.mpr issued
  rw [← List.append_assoc, List.mem_append] at entered
  rcases entered with waiting | answered
  · refine .inr ⟨?_, waiting⟩
    by_contra ended
    have none : completionsOf (runtime.queue ++ runtime.tasks) = [] := by
      simp [faithful.idle ended, completionsOf]
    simp only [completionsOf, List.map_append] at none waiting
    simp [none] at waiting
  · exact .inl answered

end OperationRuntime.Faithful

/-- In every run whose steps meet the condition, every operation is answered exactly once,
and truthfully, and none is left when the worker has ended.
-/
theorem operations_answered_once {runtime : OperationRuntime}
    (reached
      : (operationSystem.guard (fun before label => label.answersAll before = true)).Reachable
          runtime)
    : runtime.AnsweredOnce := by
  have both : runtime.Accounted [] ∧ runtime.Faithful := by
    refine reached.invariant (fun runtime => runtime.Accounted [] ∧ runtime.Faithful) ?_ ?_
    · intro first initial
      obtain rfl : first = {} := initial
      exact ⟨reachable_accounted (.start rfl), ⟨rfl, by simp, by simp, by simp⟩⟩
    · intro before label after step ⟨accounted, faithful⟩
      exact ⟨accounted.step step.2, faithful.step accounted step.1 step.2⟩
  exact both.2.answeredOnce both.1

/-- Two operations meet a shutdown, one in the queue and one in a task; a third comes late. -/
theorem operations_answered_once_at_shutdown
    : ∃ runtime : OperationRuntime, runtime.worker = .ended ∧ runtime.completed.length = 3
        ∧ runtime.AnsweredOnce := by
  let steps : List OperationStep :=
    [.enqueue .awaitPendingCall, .enqueue .targetCount, .runFront .returns, .shutdown,
      .enqueue .pump, .runFront (.throws "unknown"), .finishTask ⟨0, .awaitPendingCall⟩ .returns,
      .exitLoop]
  let checks (runtime : OperationRuntime) : Bool :=
    decide (runtime.worker = .ended ∧ runtime.completed.length = 3)
  have replayed : ∃ runtime,
      (operationSystem.guard (fun before label => label.answersAll before = true)).Reachable
        runtime
      ∧ checks runtime = true :=
    Transition.exists_guarded_of_replay _ steps checks (by decide)
  obtain ⟨runtime, reached, checked⟩ := replayed
  have state := of_decide_eq_true checked
  exact ⟨runtime, state.1, state.2, operations_answered_once reached⟩

/-- Four runs that break the condition: an operation queued behind a dead worker, one whose
task dies with the event loop, one that the failing chain misses, and an asynchronous pump.
-/
def unansweredRuns : List (List OperationStep) :=
  [
    [.loopThrows "kqueue failed", .enqueue .targetCount],
    [.enqueue .awaitPendingCall, .runFront .returns, .loopThrows "kqueue failed"],
    [.enqueue .multiVatConnectionResolveDisembargoTrace, .loopThrows "kqueue failed"],
    [.enqueue .pumpAsync, .runFront .returns]
  ]

/-- Each of the runs ends with an operation that is never answered, or with a wrong answer. -/
theorem operations_left_unanswered
    : unansweredRuns.Forall fun steps => ∃ runtime,
        Transition.replay OperationStep.run {} steps = some runtime
        ∧ operationSystem.Reachable runtime ∧ ¬ runtime.AnsweredOnce := by
  refine List.forall_iff_forall_mem.mpr fun steps member => ?_
  have broken : ∀ steps ∈ unansweredRuns,
      (Transition.replay OperationStep.run {} steps).any
        (fun runtime => !decide runtime.AnsweredOnce) = true := by
    decide
  obtain ⟨runtime, replayed, unanswered⟩ := (Option.any_eq_true _ _).mp (broken steps member)
  refine ⟨runtime, replayed, ?_, by simpa using unanswered⟩
  exact Transition.reachable_of_replay (.start rfl) replayed

end Capnp.Rpc
