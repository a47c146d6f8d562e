import Capnp.Library.EventPromise
import Capnp.Rpc.Targets
import Mathlib.Data.Finset.Basic

/-! The unit promises of a runtime and the operations that combine them. An id leaves the live
table when its promise is taken, released or awaited, and is remembered as retired then. The
async runtime and the RPC runtime each have these operations, with texts of their own.
-/

namespace Capnp.KjAsync

open EventLoop (Promises Outcome)
open Rpc (allocateId withId withoutId)

/-- A promise in the table with its canceler. -/
structure PendingPromise (P : Type) where
  promise : P
  canceler : Nat

/-- Cancelers are numbered in the order of their creation. -/
structure PromiseTable (P : Type) where
  promises : Table UInt32 (PendingPromise P) := ∅
  retiredPromiseIds : Finset UInt32 := ∅
  nextPromiseId : UInt32 := 1
  taskSets : Table UInt32 (List P) := ∅
  cancelers : Nat := 0

/-- The texts of one runtime. -/
structure PromiseTexts where
  retired : UInt32 → String
  unknown : UInt32 → String
  unknownTaskSet : UInt32 → String
  /-- What adding a retired promise to a task set reports. -/
  retiredTask : UInt32 → String

def promiseTexts : PromiseTexts where
  retired := fun promiseId => s!"KJ promise id already consumed or released: {promiseId.toNat}"
  unknown := fun promiseId => s!"unknown KJ promise id: {promiseId.toNat}"
  unknownTaskSet := fun taskSetId => s!"unknown KJ task set id: {taskSetId.toNat}"
  -- Only here does the async runtime not tell retired ids from unknown ones.
  retiredTask := fun promiseId => s!"unknown KJ promise id: {promiseId.toNat}"

def kjAsyncPromiseTexts : PromiseTexts where
  retired := fun promiseId =>
    s!"KJ async promise id already consumed or released: {promiseId.toNat}"
  unknown := fun promiseId => s!"unknown KJ async promise id: {promiseId.toNat}"
  unknownTaskSet := fun taskSetId => s!"unknown KJ async task set id: {taskSetId.toNat}"
  retiredTask := fun promiseId =>
    s!"KJ async promise id already consumed or released: {promiseId.toNat}"

variable {P E : Type} (kj : Promises P E) (texts : PromiseTexts)

def addPromise (pending : PendingPromise P) (table : PromiseTable P)
    : Option (UInt32 × PromiseTable P) :=
  (allocateId table.promises (table.promises.keys.length + 1) table.nextPromiseId).map
    (fun (promiseId, next) =>
      (promiseId,
        { table with
          promises := table.promises.insert promiseId pending
          retiredPromiseIds := table.retiredPromiseIds.erase promiseId
          nextPromiseId := next }))

/-- A promise is stored under a canceler of its own. -/
def addWrapped (promise : P) (table : PromiseTable P) : Option (UInt32 × PromiseTable P) :=
  addPromise ⟨kj.wrap table.cancelers promise, table.cancelers⟩
    { table with cancelers := table.cancelers + 1 }

/-- The id is retired, whether its promise is used or destroyed. -/
def PromiseTable.retire (promiseId : UInt32) (table : PromiseTable P) : PromiseTable P :=
  { table with
    promises := table.promises.erase promiseId
    retiredPromiseIds := insert promiseId table.retiredPromiseIds }

/-- `retired` is the text for an id that was live once. -/
def takePromise (retired : UInt32 → String) (promiseId : UInt32) (table : PromiseTable P)
    : Except String (PendingPromise P) × PromiseTable P :=
  match table.promises.lookup promiseId with
  | none =>
      if promiseId ∈ table.retiredPromiseIds then (.error (retired promiseId), table)
      else (.error (texts.unknown promiseId), table)
  | some pending => (.ok pending, table.retire promiseId)

-----------------------------------------------------------------------------------------
-- The combinators
-----------------------------------------------------------------------------------------

/-- The new id or the error, and the table left behind. -/
abbrev Started (P : Type) := Option (Except String UInt32 × PromiseTable P)

/-- The result of a combinator that has got its promises, or has failed to. -/
def startWith : Except String P × PromiseTable P → Started P
  | (.error message, table) => some (.error message, table)
  | (.ok promise, table) =>
      (addWrapped kj promise table).map (fun (promiseId, table) => (.ok promiseId, table))

/-- The loop that takes the promises one after the other, adding each to what it builds. -/
def takeEach {α : Type} (build : α → P → α) (built : α)
    : List UInt32 → PromiseTable P → Except String α × PromiseTable P
  | [], table => (.ok built, table)
  | promiseId :: rest, table =>
      match takePromise texts texts.retired promiseId table with
      | (.error message, table) => (.error message, table)
      | (.ok pending, table) => takeEach build (build built pending.promise) rest table

/-- The two combinators of two promises. -/
def startBoth (combine : P → P → P) (firstPromiseId secondPromiseId : UInt32)
    (table : PromiseTable P)
    : Started P :=
  match takePromise texts texts.retired firstPromiseId table with
  | (.error message, table) => some (.error message, table)
  | (.ok firstPending, table) =>
      match takePromise texts texts.retired secondPromiseId table with
      | (.error message, table) => some (.error message, table)
      | (.ok secondPending, table) =>
          startWith kj (.ok (combine firstPending.promise secondPending.promise), table)

def thenStart (firstPromiseId secondPromiseId : UInt32)
    : PromiseTable P → Started P :=
  startBoth kj texts kj.andThen firstPromiseId secondPromiseId

def catchStart (promiseId fallbackPromiseId : UInt32)
    : PromiseTable P → Started P :=
  startBoth kj texts kj.recover promiseId fallbackPromiseId

/-- `promises.add`, to the array of the promises taken so far. -/
def collect (promises : List P) (promise : P) : List P :=
  promises ++ [promise]

def allStart (promiseIds : List UInt32) (table : PromiseTable P)
    : Started P :=
  let (promises, table) := takeEach texts collect [] promiseIds table
  startWith kj (promises.map kj.joinAll, table)

/-- The first promise, with the others joined to it one after the other. -/
def takeOnto (combine : P → P → P) (first : UInt32) (rest : List UInt32) (table : PromiseTable P)
    : Except String P × PromiseTable P :=
  match takePromise texts texts.retired first table with
  | (.error message, table) => (.error message, table)
  | (.ok firstPending, table) => takeEach texts combine firstPending.promise rest table

def raceStart (promiseIds : List UInt32) (table : PromiseTable P)
    : Started P :=
  match promiseIds with
  | [] => some (.error "promiseRaceStart requires at least one promise id", table)
  | first :: rest => startWith kj (takeOnto texts kj.exclusiveJoin first rest table)

def addToTaskSet (taskSetId promiseId : UInt32) (table : PromiseTable P)
    : Except String Unit × PromiseTable P :=
  match table.taskSets.lookup taskSetId with
  | none => (.error (texts.unknownTaskSet taskSetId), table)
  | some tasks =>
      match takePromise texts texts.retiredTask promiseId table with
      | (.error message, table) => (.error message, table)
      | (.ok pending, table) =>
          (.ok (),
            { table with
              taskSets := table.taskSets.insert taskSetId (tasks ++ [pending.promise]) })

-----------------------------------------------------------------------------------------
-- Awaiting, canceling, releasing
-----------------------------------------------------------------------------------------

/-- An event that the loop handles, for every promise that is stored. -/
def PromiseTable.handle (event : E) (table : PromiseTable P) : PromiseTable P :=
  { table with
    promises :=
      Table.mapValues
        (fun pending => { pending with promise := kj.handle event pending.promise })
        table.promises
    taskSets := Table.mapValues (fun tasks => tasks.map (kj.handle event)) table.taskSets }

/-- A rejected promise throws what it was rejected with. -/
def answerOf : Outcome → Except String Unit
  | .fulfilled => .ok ()
  | .rejected reason => .error reason

/-- An id that is not live: a retired one is answered at once. -/
def answerMissing (promiseId : UInt32) (table : PromiseTable P)
    : Except String Unit × PromiseTable P :=
  if promiseId ∈ table.retiredPromiseIds then (.ok (), table)
  else (.error (texts.unknown promiseId), table)

/-- `waitScope` are the events that the loop is given while it waits. There is no result while
they do not settle the promise.
-/
def awaitStored (waitScope : List E) (promiseId : UInt32) (table : PromiseTable P)
    : Option (Except String Unit × PromiseTable P) :=
  match table.promises.lookup promiseId with
  | none => some (answerMissing texts promiseId table)
  | some pending =>
      (kj.wait waitScope pending.promise).map (fun (outcome, handled) =>
        (answerOf outcome,
          handled.foldl (fun table event => table.handle kj event) (table.retire promiseId)))

/-- The promise stays in the table. -/
def cancelStored (promiseId : UInt32) (table : PromiseTable P)
    : Except String Unit × PromiseTable P :=
  match table.promises.lookup promiseId with
  | none => answerMissing texts promiseId table
  | some pending =>
      (.ok (),
        { table with
          promises :=
            table.promises.insert promiseId
              { pending with
                promise :=
                  kj.cancel pending.canceler "Capnp.KjAsync promise canceled from Lean"
                    pending.promise } })

def releaseStored (promiseId : UInt32) (table : PromiseTable P)
    : Except String Unit × PromiseTable P :=
  match table.promises.lookup promiseId with
  | none => answerMissing texts promiseId table
  | some _ => (.ok (), table.retire promiseId)

-----------------------------------------------------------------------------------------
-- The two runtimes
-----------------------------------------------------------------------------------------

def promiseThenStart : UInt32 → UInt32 → PromiseTable P → Started P :=
  thenStart kj promiseTexts

def promiseCatchStart : UInt32 → UInt32 → PromiseTable P → Started P :=
  catchStart kj promiseTexts

def promiseAllStart : List UInt32 → PromiseTable P → Started P :=
  allStart kj promiseTexts

def promiseRaceStart : List UInt32 → PromiseTable P → Started P :=
  raceStart kj promiseTexts

def taskSetAddPromise : UInt32 → UInt32 → PromiseTable P → Except String Unit × PromiseTable P :=
  addToTaskSet promiseTexts

def awaitPromise
    : List E → UInt32 → PromiseTable P → Option (Except String Unit × PromiseTable P) :=
  awaitStored kj promiseTexts

def cancelPromise : UInt32 → PromiseTable P → Except String Unit × PromiseTable P :=
  cancelStored kj promiseTexts

def releasePromise : UInt32 → PromiseTable P → Except String Unit × PromiseTable P :=
  releaseStored promiseTexts

def kjAsyncPromiseThenStart : UInt32 → UInt32 → PromiseTable P → Started P :=
  thenStart kj kjAsyncPromiseTexts

def kjAsyncPromiseCatchStart : UInt32 → UInt32 → PromiseTable P → Started P :=
  catchStart kj kjAsyncPromiseTexts

def kjAsyncPromiseAllStart : List UInt32 → PromiseTable P → Started P :=
  allStart kj kjAsyncPromiseTexts

def kjAsyncPromiseRaceStart : List UInt32 → PromiseTable P → Started P :=
  raceStart kj kjAsyncPromiseTexts

def kjAsyncTaskSetAddPromise
    : UInt32 → UInt32 → PromiseTable P → Except String Unit × PromiseTable P :=
  addToTaskSet kjAsyncPromiseTexts

def awaitKjAsyncPromise
    : List E → UInt32 → PromiseTable P → Option (Except String Unit × PromiseTable P) :=
  awaitStored kj kjAsyncPromiseTexts

def cancelKjAsyncPromise : UInt32 → PromiseTable P → Except String Unit × PromiseTable P :=
  cancelStored kj kjAsyncPromiseTexts

def releaseKjAsyncPromise : UInt32 → PromiseTable P → Except String Unit × PromiseTable P :=
  releaseStored kjAsyncPromiseTexts

/-- The two runtimes with such a table. -/
inductive RuntimeKind where
  | kjAsync
  | rpc
deriving DecidableEq

def RuntimeKind.promiseTexts : RuntimeKind → PromiseTexts
  | kjAsync => KjAsync.promiseTexts
  | rpc => kjAsyncPromiseTexts

/-- The operations that make a promise from others. -/
inductive PromiseCombinator where
  | thenStart (firstPromiseId secondPromiseId : UInt32)
  | catchStart (promiseId fallbackPromiseId : UInt32)
  | allStart (promiseIds : List UInt32)
  | raceStart (promiseIds : List UInt32)
  | taskSetAddPromise (taskSetId promiseId : UInt32)

namespace PromiseCombinator

/-- The ids of the promises to take, in order. -/
def promiseIds : PromiseCombinator → List UInt32
  | thenStart first second => [first, second]
  | catchStart promiseId fallback => [promiseId, fallback]
  | allStart promiseIds => promiseIds
  | raceStart promiseIds => promiseIds
  | taskSetAddPromise _ promiseId => [promiseId]

/-- One operation in one of the runtimes. -/
def run (table : PromiseTable P)
    : RuntimeKind → PromiseCombinator → Option (Except String (Option UInt32) × PromiseTable P)
  | .kjAsync, thenStart first second => (promiseThenStart kj first second table).map withId
  | .kjAsync, catchStart first fallback => (promiseCatchStart kj first fallback table).map withId
  | .kjAsync, allStart promiseIds => (promiseAllStart kj promiseIds table).map withId
  | .kjAsync, raceStart promiseIds => (promiseRaceStart kj promiseIds table).map withId
  | .kjAsync, taskSetAddPromise taskSetId promiseId =>
      some (withoutId (KjAsync.taskSetAddPromise taskSetId promiseId table))
  | .rpc, thenStart first second => (kjAsyncPromiseThenStart kj first second table).map withId
  | .rpc, catchStart first fallback => (kjAsyncPromiseCatchStart kj first fallback table).map withId
  | .rpc, allStart promiseIds => (kjAsyncPromiseAllStart kj promiseIds table).map withId
  | .rpc, raceStart promiseIds => (kjAsyncPromiseRaceStart kj promiseIds table).map withId
  | .rpc, taskSetAddPromise taskSetId promiseId =>
      some (withoutId (kjAsyncTaskSetAddPromise taskSetId promiseId table))

end PromiseCombinator

end Capnp.KjAsync
