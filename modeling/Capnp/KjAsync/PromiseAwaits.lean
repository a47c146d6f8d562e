import Capnp.KjAsync.PromiseCombinators
import Capnp.Library.Transition

/-! What a successful await says about the promise. An id that has left the live table is only
remembered as retired, whatever the reason, and awaiting a retired id returns at once. A run
keeps a record of what became of each promise, which the code has not.
-/

namespace Capnp.KjAsync

open EventLoop (Promises Outcome)
open Rpc (withoutId)

variable {P E : Type} {kj : Promises P E} {kind : RuntimeKind} {table : PromiseTable P}
  {promiseId : UInt32}

-----------------------------------------------------------------------------------------
-- Runs
-----------------------------------------------------------------------------------------

/-- `create` stands for every operation that stores a new promise, `turn` for an event that the
loop handles between the operations.
-/
inductive PromiseStep (P E : Type) where
  | create (promise : P)
  | combine (op : PromiseCombinator)
  | await (waitScope : List E) (promiseId : UInt32)
  | cancel (promiseId : UInt32)
  | release (promiseId : UInt32)
  | turn (event : E)

namespace PromiseStep

/-- One step of a runtime's table, with its answer. -/
def operate (kj : Promises P E) (kind : RuntimeKind) (table : PromiseTable P)
    : PromiseStep P E → Option (Except String (Option UInt32) × PromiseTable P)
  | create promise =>
      (addWrapped kj promise table).map
        (fun (promiseId, table) => (.ok (some promiseId), table))
  | combine op => op.run kj table kind
  | await waitScope promiseId =>
      match kind with
      | .kjAsync => (awaitPromise kj waitScope promiseId table).map withoutId
      | .rpc => (awaitKjAsyncPromise kj waitScope promiseId table).map withoutId
  | cancel promiseId =>
      match kind with
      | .kjAsync => some (withoutId (cancelPromise kj promiseId table))
      | .rpc => some (withoutId (cancelKjAsyncPromise kj promiseId table))
  | release promiseId =>
      match kind with
      | .kjAsync => some (withoutId (releasePromise promiseId table))
      | .rpc => some (withoutId (releaseKjAsyncPromise promiseId table))
  | turn event => some (.ok none, table.handle kj event)

end PromiseStep

/-- What became of a promise since it was stored under its id. -/
structure Registration (P : Type) where
  promise : P
  succeeded : Bool := false
  failed : Bool := false
  consumed : Bool := false
  released : Bool := false
  canceled : Bool := false

/-- A table, the last registration of each id, and the registration that each successful await
was about, as it stood when the await returned.
-/
structure PromiseRun (P : Type) where
  table : PromiseTable P := {}
  registrations : UInt32 → Option (Registration P) := fun _ => none
  successes : List (Option (Registration P)) := []

namespace PromiseStep

/-- The events that the loop handles in a step. -/
def handled (kj : Promises P E) (table : PromiseTable P) : PromiseStep P E → List E
  | await waitScope promiseId =>
      match (table.promise? promiseId).bind (kj.wait waitScope) with
      | some (_, handled) => handled
      | none => []
  | turn event => [event]
  | _ => []

/-- What the step does to the promise under an id goes into its registration. -/
def mark (before after : PromiseTable P) (answer : Except String (Option UInt32))
    (promiseId : UInt32) (registration : Registration P)
    : PromiseStep P E → Registration P
  | combine _ =>
      if promiseId ∈ before.promises ∧ promiseId ∉ after.promises then
        { registration with consumed := true }
      else registration
  | await _ target =>
      if promiseId = target ∧ promiseId ∈ before.promises then
        match answer with
        | .ok _ => { registration with succeeded := true }
        | .error _ => { registration with failed := true }
      else registration
  | cancel target =>
      if promiseId = target ∧ answer.isOk then
        { registration with
          promise := (after.promise? promiseId).getD registration.promise
          canceled := true }
      else registration
  | release target =>
      if promiseId = target ∧ answer.isOk then { registration with released := true }
      else registration
  | _ => registration

def registrations (kj : Promises P E) (run : PromiseRun P)
    (answer : Except String (Option UInt32)) (after : PromiseTable P) (step : PromiseStep P E)
    (promiseId : UInt32)
    : Option (Registration P) :=
  if answer.toOption.join = some promiseId then
    (after.promise? promiseId).map (fun promise => { promise })
  else
    (run.registrations promiseId).map (fun registration =>
      step.mark run.table after answer promiseId
        { registration with
          promise := kj.handleAll (step.handled kj run.table) registration.promise })

def successes (registrations : UInt32 → Option (Registration P))
    (answer : Except String (Option UInt32))
    : PromiseStep P E → List (Option (Registration P))
  | await _ promiseId => if answer.isOk then [registrations promiseId] else []
  | _ => []

/-- A step with the record of it. -/
def run (kj : Promises P E) (kind : RuntimeKind) (before : PromiseRun P) (step : PromiseStep P E)
    : Option (PromiseRun P) :=
  (step.operate kj kind before.table).map (fun (answer, after) =>
    let registrations := step.registrations kj before answer after
    { table := after
      registrations := registrations
      successes := before.successes ++ step.successes registrations answer })

end PromiseStep

def promiseSystem (kj : Promises P E) (kind : RuntimeKind)
    : Transition.System (PromiseRun P) (PromiseStep P E) :=
  .ofFunction {} (PromiseStep.run kj kind)

/-- The promise has resolved successfully, and the id was not given up in any way. -/
def Registration.Resolved (kj : Promises P E) (registration : Registration P) : Prop :=
  kj.outcome registration.promise = some .fulfilled
    ∧ registration.failed = false ∧ registration.consumed = false
    ∧ registration.released = false ∧ registration.canceled = false

/-- Every successful await was about a promise that had resolved successfully. -/
def PromiseRun.Truthful (kj : Promises P E) (run : PromiseRun P) : Prop :=
  ∀ success ∈ run.successes, ∃ registration, success = some registration
    ∧ registration.Resolved kj

/-- An awaited id is live, and its promise was not canceled after it had succeeded; or it is
unknown; or it was retired by an await that succeeded, and neither released nor canceled since.
-/
def AwaitsOwn (kj : Promises P E) (run : PromiseRun P) : PromiseStep P E → Prop
  | .await _ promiseId =>
      if promiseId ∈ run.table.promises then
        ∀ registration, run.registrations promiseId = some registration →
          registration.canceled = true → kj.outcome registration.promise ≠ some .fulfilled
      else
        promiseId ∈ run.table.retiredPromiseIds →
          ∃ registration, run.registrations promiseId = some registration
            ∧ registration.succeeded = true
            ∧ registration.released = false ∧ registration.canceled = false
  | _ => True

def handlePending (kj : Promises P E) (events : List E) (pending : PendingPromise P)
    : PendingPromise P :=
  { pending with promise := kj.handleAll events pending.promise }

/-- The stored promises follow the events, by induction on them. -/
theorem lookup_foldl_handle (events : List E) (promiseId : UInt32)
    : (events.foldl (fun table event => table.handle kj event) table).promises.lookup promiseId
      = (table.promises.lookup promiseId).map (handlePending kj events) := by
  induction events generalizing table with
  | nil => exact (congrFun Option.map_id _).symm
  | cons event rest ih =>
      rw [List.foldl_cons, ih, PromiseTable.handle, Table.lookup_mapValues, Option.map_map]
      rfl

/-- Events retire no promise, by induction on them. -/
theorem retired_foldl_handle (events : List E)
    : (events.foldl (fun table event => table.handle kj event) table).retiredPromiseIds
      = table.retiredPromiseIds := by
  induction events generalizing table with
  | nil => rfl
  | cons event rest ih => exact ih

/-- An id that is not live is answered from the retired ids, and nothing changes. -/
def AnsweredMissing (table : PromiseTable P) (promiseId : UInt32)
    (answer : Except String (Option UInt32)) (after : PromiseTable P)
    : Prop :=
  promiseId ∉ table.promises ∧ after = table
    ∧ (promiseId ∈ table.retiredPromiseIds ∧ answer = .ok none
      ∨ promiseId ∉ table.retiredPromiseIds ∧ ∃ message, answer = .error message)

/-- The answer for a promise that is not in the table. -/
theorem answeredMissing {answer : Except String (Option UInt32)} {after : PromiseTable P}
    {texts : PromiseTexts} (missing : table.promises.lookup promiseId = none)
    (answered : withoutId (answerMissing texts promiseId table) = (answer, after))
    : AnsweredMissing table promiseId answer after := by
  refine ⟨AList.lookup_eq_none.mp missing, ?_⟩
  rw [answerMissing] at answered
  split_ifs at answered with retired
  · obtain ⟨rfl, rfl⟩ := Prod.mk.inj answered
    exact ⟨rfl, .inl ⟨retired, rfl⟩⟩
  · obtain ⟨rfl, rfl⟩ := Prod.mk.inj answered
    exact ⟨rfl, .inr ⟨retired, _, rfl⟩⟩

namespace PromiseStep

variable {answer : Except String (Option UInt32)} {after : PromiseTable P}

/-- What an await does: it finds no promise, or takes the outcome of the one it finds. -/
theorem operate_await {waitScope : List E}
    (ran : (await waitScope promiseId : PromiseStep P E).operate kj kind table
      = some (answer, after))
    : AnsweredMissing table promiseId answer after
      ∨ ∃ pending outcome handled, table.promises.lookup promiseId = some pending
        ∧ kj.wait waitScope pending.promise = some (outcome, handled)
        ∧ answer = (answerOf outcome).map (fun _ => none)
        ∧ after
          = handled.foldl (fun table event => table.handle kj event)
              (table.retire promiseId) := by
  have runs
      : (await waitScope promiseId : PromiseStep P E).operate kj kind table
        = (awaitStored kj kind.promiseTexts waitScope promiseId table).map withoutId := by
    cases kind <;> rfl
  obtain ⟨result, awaited, same⟩ := Option.map_eq_some_iff.mp (runs.symm.trans ran)
  rw [awaitStored] at awaited
  cases found : table.promises.lookup promiseId with
  | none =>
      simp only [found, Option.some.injEq] at awaited
      exact .inl (answeredMissing found (awaited ▸ same))
  | some pending =>
      simp only [found] at awaited
      obtain ⟨⟨outcome, handled⟩, waited, rfl⟩ := Option.map_eq_some_iff.mp awaited
      obtain ⟨rfl, rfl⟩ := Prod.mk.inj same
      exact .inr ⟨pending, outcome, handled, rfl, waited, rfl, rfl⟩

/-- What a cancel does: it finds no promise, or cancels the one it finds. -/
theorem operate_cancel
    (ran : (cancel promiseId : PromiseStep P E).operate kj kind table = some (answer, after))
    : AnsweredMissing table promiseId answer after
      ∨ ∃ pending reason, table.promises.lookup promiseId = some pending ∧ answer = .ok none
        ∧ after
          = { table with
              promises :=
                table.promises.insert promiseId
                  { pending with
                    promise := kj.cancel pending.canceler reason pending.promise } } := by
  have runs
      : (cancel promiseId : PromiseStep P E).operate kj kind table
        = some (withoutId (cancelStored kj kind.promiseTexts promiseId table)) := by
    cases kind <;> rfl
  have canceled := Option.some.inj (runs.symm.trans ran)
  rw [cancelStored] at canceled
  cases found : table.promises.lookup promiseId with
  | none =>
      simp only [found] at canceled
      exact .inl (answeredMissing found canceled)
  | some pending =>
      simp only [found] at canceled
      obtain ⟨rfl, rfl⟩ := Prod.mk.inj canceled
      exact .inr ⟨pending, _, rfl, rfl, rfl⟩

/-- What a release does: it finds no promise, or retires the one it finds. -/
theorem operate_release
    (ran : (release promiseId : PromiseStep P E).operate kj kind table = some (answer, after))
    : AnsweredMissing table promiseId answer after
      ∨ promiseId ∈ table.promises ∧ answer = .ok none ∧ after = table.retire promiseId := by
  have runs
      : (release promiseId : PromiseStep P E).operate kj kind table
        = some (withoutId (releaseStored kind.promiseTexts promiseId table)) := by
    cases kind <;> rfl
  have released := Option.some.inj (runs.symm.trans ran)
  rw [releaseStored] at released
  cases found : table.promises.lookup promiseId with
  | none =>
      simp only [found] at released
      exact .inl (answeredMissing found released)
  | some pending =>
      simp only [found] at released
      obtain ⟨rfl, rfl⟩ := Prod.mk.inj released
      exact .inr ⟨AList.lookup_isSome.mp (by simp [found]), rfl, rfl⟩

end PromiseStep

/-- The registration of a live id. -/
structure Registration.Open (kj : Promises P E) (registration : Registration P)
    (pending : PendingPromise P)
    : Prop where
  promise : registration.promise = pending.promise
  wrapped : kj.Wrapped pending.canceler registration.promise
  unspent
    : registration.succeeded = false ∧ registration.failed = false
      ∧ registration.consumed = false ∧ registration.released = false
  settled : registration.canceled = true → ∃ outcome, kj.outcome registration.promise = some outcome

/-- The registration of a retired id. -/
structure Registration.Closed (kj : Promises P E) (registration : Registration P) : Prop where
  truthful
    : registration.succeeded = true → kj.outcome registration.promise = some .fulfilled
      ∧ registration.failed = false ∧ registration.consumed = false
  spent
    : registration.succeeded = false → registration.failed = true
      ∨ registration.consumed = true ∨ registration.released = true

/-- A change that says nothing new about how the id was retired. -/
structure Registration.Noted (found noted : Registration P) : Prop where
  promise : noted.promise = found.promise
  succeeded : noted.succeeded = found.succeeded
  failed : noted.failed = found.failed
  consumed : noted.consumed = found.consumed
  released : found.released = true → noted.released = true

/-- The registration goes with what the table has under the id. -/
def Tracks (kj : Promises P E) (retired : Prop) (registration : Option (Registration P))
    : Option (PendingPromise P) → Prop
  | some pending => ∃ found, registration = some found ∧ found.Open kj pending
  | none => retired → ∃ found, registration = some found ∧ found.Closed kj

def PromiseRun.Consistent (kj : Promises P E) (run : PromiseRun P) : Prop :=
  ∀ promiseId,
    Tracks kj (promiseId ∈ run.table.retiredPromiseIds) (run.registrations promiseId)
      (run.table.promises.lookup promiseId)

section Tracks

variable {retired retired' : Prop} {registration : Option (Registration P)}
  {pending : PendingPromise P} {stored : Option (PendingPromise P)}

/-- Events change the promise where it is stored and in the record alike. -/
theorem Tracks.handleAll (tracks : Tracks kj retired registration stored) (events : List E)
    : Tracks kj retired
        (registration.map
          (fun found => { found with promise := kj.handleAll events found.promise }))
        (stored.map (handlePending kj events)) := by
  cases stored with
  | some pending =>
      obtain ⟨found, rfl, holds⟩ := tracks
      refine ⟨_, rfl, congrArg (kj.handleAll events) holds.promise, ?_, holds.unspent, ?_⟩
      · exact EventLoop.Promises.wrapped_handleAll holds.wrapped events
      · intro canceled
        obtain ⟨outcome, settled⟩ := holds.settled canceled
        exact ⟨outcome, EventLoop.Promises.settled_handleAll settled events⟩
  | none =>
      intro known
      obtain ⟨found, rfl, closed⟩ := tracks known
      refine ⟨_, rfl, fun succeeded => ?_, closed.spent⟩
      obtain ⟨resolved, others⟩ := closed.truthful succeeded
      exact ⟨EventLoop.Promises.settled_handleAll resolved events, others⟩

/-- A new promise is tracked as it was registered. -/
theorem Tracks.added (canceler : Nat) (promise : P)
    : Tracks kj retired (some { promise := kj.wrap canceler promise })
        (some ⟨kj.wrap canceler promise, canceler⟩) := by
  refine ⟨_, rfl, rfl, kj.wrapped_wrap canceler promise, ⟨rfl, rfl, rfl, rfl⟩, ?_⟩
  exact fun canceled => nomatch canceled

/-- A live id is given up for one of the reasons that leave it without success. -/
theorem Tracks.spent {mark : Registration P → Registration P}
    (tracks : Tracks kj retired registration (some pending))
    (marks
      : ∀ found, (mark found).succeeded = found.succeeded
          ∧ ((mark found).failed = true ∨ (mark found).consumed = true
            ∨ (mark found).released = true))
    : Tracks kj retired' (registration.map mark) none := by
  intro _
  obtain ⟨found, rfl, holds⟩ := tracks
  refine ⟨mark found, rfl, fun succeeded => ?_, fun _ => (marks found).2⟩
  rw [(marks found).1, holds.unspent.1] at succeeded
  exact nomatch succeeded

/-- A promise that succeeded was fulfilled, and is tracked no longer. -/
theorem Tracks.succeeded (tracks : Tracks kj retired registration (some pending))
    (resolved : kj.outcome pending.promise = some .fulfilled)
    : Tracks kj retired' (registration.map (fun found => { found with succeeded := true }))
        none := by
  intro _
  obtain ⟨found, rfl, holds⟩ := tracks
  refine ⟨_, rfl, fun _ => ⟨?_, holds.unspent.2.1, holds.unspent.2.2.1⟩, ?_⟩
  swap
  · exact fun unspent => nomatch unspent
  exact holds.promise ▸ resolved

/-- A canceled promise is tracked as a canceled one. -/
theorem Tracks.canceled (tracks : Tracks kj retired registration (some pending)) (reason : String)
    : Tracks kj retired
        (registration.map (fun found =>
          { found with
            promise := kj.cancel pending.canceler reason pending.promise
            canceled := true }))
        (some { pending with promise := kj.cancel pending.canceler reason pending.promise }) := by
  obtain ⟨found, rfl, holds⟩ := tracks
  have wrapped := holds.promise ▸ holds.wrapped
  refine ⟨_, rfl, rfl, kj.wrapped_cancel _ reason wrapped, holds.unspent, fun _ => ?_⟩
  cases settled : kj.outcome pending.promise with
  | some outcome => exact ⟨outcome, kj.settled_cancel _ reason settled⟩
  | none => exact ⟨_, kj.canceled reason wrapped settled⟩

/-- Releasing or canceling a retired id once more. -/
theorem Tracks.noted {mark : Registration P → Registration P}
    (tracks : Tracks kj retired registration none)
    (marks : ∀ found : Registration P, found.Noted (mark found))
    : Tracks kj retired (registration.map mark) none := by
  intro known
  obtain ⟨found, rfl, closed⟩ := tracks known
  have noted := marks found
  refine ⟨mark found, rfl, fun success => ?_, fun unsuccessful => ?_⟩
  · rw [noted.promise, noted.failed, noted.consumed]
    exact closed.truthful (noted.succeeded ▸ success)
  · rw [noted.failed, noted.consumed]
    exact (closed.spent (noted.succeeded ▸ unsuccessful)).imp_right (Or.imp_right noted.released)

end Tracks

-----------------------------------------------------------------------------------------
-- Every step keeps the record
-----------------------------------------------------------------------------------------

namespace PromiseStep

variable {before : PromiseRun P} {answer : Except String (Option UInt32)}
  {after : PromiseTable P} {step : PromiseStep P E}

/-- A promise that is answered with its id is registered. -/
theorem registrations_of_result (stores : answer.toOption.join = some promiseId)
    : step.registrations kj before answer after promiseId
      = (after.promise? promiseId).map (fun promise => { promise }) :=
  if_pos stores

/-- The other registrations follow the events of the step and are marked then. -/
theorem registrations_of_other (other : answer.toOption.join ≠ some promiseId)
    : step.registrations kj before answer after promiseId
      = ((before.registrations promiseId).map (fun registration =>
            { registration with
              promise := kj.handleAll (step.handled kj before.table) registration.promise })).map
          (step.mark before.table after answer promiseId) := by
  rw [registrations, if_neg other, Option.map_map]
  rfl

/-- A step without events only marks the other registrations. -/
theorem registrations_of_idle (other : answer.toOption.join ≠ some promiseId)
    (idle : step.handled kj before.table = [])
    : step.registrations kj before answer after promiseId
      = (before.registrations promiseId).map
          (step.mark before.table after answer promiseId) := by
  rw [registrations_of_other other, idle, Option.map_map]
  rfl

/-- An operation on one id marks the registration of that id only. -/
theorem mark_await_other {target : UInt32} {waitScope : List E} (different : promiseId ≠ target)
    (found : Registration P)
    : mark before.table after answer promiseId found (await waitScope target) = found :=
  if_neg (fun both => different both.1)

/-- Canceling marks no other promise. -/
theorem mark_cancel_other {target : UInt32} (different : promiseId ≠ target)
    (found : Registration P)
    : mark before.table after answer promiseId found (cancel target : PromiseStep P E) = found :=
  if_neg (fun both => different both.1)

/-- Releasing marks no other promise. -/
theorem mark_release_other {target : UInt32} (different : promiseId ≠ target)
    (found : Registration P)
    : mark before.table after answer promiseId found (release target : PromiseStep P E)
      = found :=
  if_neg (fun both => different both.1)

/-- A mark that changes nothing. -/
theorem map_unmarked {mark : Registration P → Registration P} (same : ∀ found, mark found = found)
    (registration : Option (Registration P))
    : registration.map mark = registration := by
  rw [funext same]
  exact congrFun Option.map_id registration

/-- The record that a step leaves, as the invariant states it. -/
def Keeps (kj : Promises P E) (before : PromiseRun P) (answer : Except String (Option UInt32))
    (after : PromiseTable P) (step : PromiseStep P E)
    : Prop :=
  ∀ promiseId,
    Tracks kj (promiseId ∈ after.retiredPromiseIds)
      (step.registrations kj before answer after promiseId)
      (after.promises.lookup promiseId)

/-- A new promise has a registration of its own. -/
theorem tracks_result {canceler : Nat} {promise : P}
    (stores : answer.toOption.join = some promiseId)
    (stored : after.promises.lookup promiseId = some ⟨kj.wrap canceler promise, canceler⟩)
    : Tracks kj (promiseId ∈ after.retiredPromiseIds)
        (step.registrations kj before answer after promiseId)
        (after.promises.lookup promiseId) := by
  rw [registrations_of_result stores, PromiseTable.promise?, stored]
  exact .added canceler promise

/-- A turn of the event loop keeps the run consistent. -/
theorem keeps_turn (consistent : before.Consistent kj) (event : E)
    : (turn event : PromiseStep P E).Keeps kj before (.ok none)
        (before.table.handle kj event) := by
  intro promiseId
  have unmarked (found : Registration P)
      : mark before.table (before.table.handle kj event) (.ok none) promiseId found (turn event)
        = found := rfl
  rw [registrations_of_other (by simp [Except.toOption]), map_unmarked unmarked,
    PromiseTable.handle, Table.lookup_mapValues]
  exact (consistent promiseId).handleAll [event]

/-- Adding a promise keeps the run consistent. -/
theorem keeps_create {promise : P} {stored : UInt32} (consistent : before.Consistent kj)
    (added : addWrapped kj promise before.table = some (stored, after))
    : (create promise : PromiseStep P E).Keeps kj before (.ok (some stored)) after := by
  obtain ⟨-, promises, retired, -⟩ := addWrapped_spec added
  intro promiseId
  rcases eq_or_ne stored promiseId with rfl | same
  · exact tracks_result rfl (promises ▸ AList.lookup_insert _)
  · have other : (Except.ok (some stored) : Except String _).toOption.join ≠ some promiseId :=
      fun equal => same (Option.some.inj equal)
    have unmarked (found : Registration P)
        : mark before.table after (.ok (some stored)) promiseId found
            (create promise : PromiseStep P E)
          = found := rfl
    rw [registrations_of_idle other rfl, promises, AList.lookup_insert_ne (Ne.symm same), retired,
      Finset.mem_erase, and_iff_right (Ne.symm same), map_unmarked unmarked]
    exact consistent promiseId

/-- A combinator gives its promises up, whether it succeeds or fails. -/
theorem keeps_combine {op : PromiseCombinator} (consistent : before.Consistent kj)
    (ran : op.run kj before.table kind = some (answer, after))
    : (combine op : PromiseStep P E).Keeps kj before answer after := by
  obtain ⟨gone, live, added, others, retired⟩ := PromiseCombinator.run_effect ran
  intro promiseId
  by_cases result : answer.toOption.join = some promiseId
  · obtain ⟨canceler, promise, stored⟩ := added promiseId result
    exact tracks_result result stored
  · rw [registrations_of_idle result rfl, others promiseId result, retired promiseId,
      and_iff_left result]
    by_cases given : promiseId ∈ gone
    · obtain ⟨pending, found⟩ := exists_pending (live promiseId given)
      have tracks := consistent promiseId
      rw [found] at tracks
      have lost : promiseId ∉ after.promises := by
        rw [← AList.lookup_eq_none, others promiseId result, if_pos given]
      rw [if_pos given]
      refine tracks.spent (fun registration => ?_)
      simp [mark, live promiseId given, lost]
    · have kept : ¬ (promiseId ∈ before.table.promises ∧ promiseId ∉ after.promises) := by
        rw [← AList.lookup_eq_none, others promiseId result, if_neg given, AList.lookup_eq_none]
        exact fun both => both.2 both.1
      have unmarked (found : Registration P)
          : mark before.table after answer promiseId found (combine op : PromiseStep P E) = found :=
        if_neg kept
      rw [if_neg given, or_iff_left given, map_unmarked unmarked]
      exact consistent promiseId

/-- A step on one id keeps the record when it keeps what is known of that id and leaves the
others alone.
-/
theorem keeps_of_target {target : UInt32} (consistent : before.Consistent kj)
    (noResult : answer.toOption.join = none) (idle : step.handled kj before.table = [])
    (own
      : Tracks kj (target ∈ after.retiredPromiseIds)
          ((before.registrations target).map (step.mark before.table after answer target))
          (after.promises.lookup target))
    (unmarked
      : ∀ promiseId ≠ target, ∀ found : Registration P,
          step.mark before.table after answer promiseId found = found)
    (elsewhere
      : ∀ promiseId ≠ target,
          after.promises.lookup promiseId = before.table.promises.lookup promiseId
          ∧ (promiseId ∈ after.retiredPromiseIds
              ↔ promiseId ∈ before.table.retiredPromiseIds))
    : step.Keeps kj before answer after := by
  intro promiseId
  rw [registrations_of_idle (by simp [noResult]) idle]
  rcases eq_or_ne promiseId target with rfl | different
  · exact own
  · obtain ⟨promises, retired⟩ := elsewhere promiseId different
    rw [map_unmarked (unmarked promiseId different), promises, retired]
    exact consistent promiseId

/-- An id that leaves the table leaves the other ids alone. -/
theorem retire_elsewhere (table : PromiseTable P) {target promiseId : UInt32}
    (different : promiseId ≠ target)
    : (table.retire target).promises.lookup promiseId = table.promises.lookup promiseId
      ∧ (promiseId ∈ (table.retire target).retiredPromiseIds
          ↔ promiseId ∈ table.retiredPromiseIds) := by
  refine ⟨AList.lookup_erase_ne different, ?_⟩
  rw [PromiseTable.retire, Finset.mem_insert, or_iff_right different]

/-- An id that is not live is at most released or canceled once more. -/
theorem keeps_missing {target : UInt32} (consistent : before.Consistent kj)
    (missing : AnsweredMissing before.table target answer after)
    (idle : step.handled kj before.table = [])
    (noted
      : ∀ found : Registration P,
          found.Noted (step.mark before.table before.table answer target found))
    (others
      : ∀ promiseId ≠ target, ∀ found : Registration P,
          step.mark before.table before.table answer promiseId found = found)
    : step.Keeps kj before answer after := by
  obtain ⟨absent, rfl, answers⟩ := missing
  have other : answer.toOption.join = none := by
    rcases answers with ⟨-, rfl⟩ | ⟨-, message, rfl⟩
    · rfl
    · rfl
  refine keeps_of_target consistent other idle ?_ others (fun _ _ => ⟨rfl, Iff.rfl⟩)
  have tracks := consistent target
  rw [AList.lookup_eq_none.mpr absent] at tracks ⊢
  exact tracks.noted noted

/-- The promise leaves the table before the wait, which decides how it is recorded. -/
theorem keeps_await {waitScope : List E} {target : UInt32} (consistent : before.Consistent kj)
    (ran : (await waitScope target : PromiseStep P E).operate kj kind before.table
      = some (answer, after))
    : (await waitScope target : PromiseStep P E).Keeps kj before answer after := by
  rcases operate_await ran with missing | ⟨pending, outcome, events, found, waited, rfl, rfl⟩
  · have absent := missing.1
    refine keeps_missing consistent missing ?_ (fun registration => ?_)
      (fun _ different => mark_await_other different)
    · simp [handled, PromiseTable.promise?, AList.lookup_eq_none.mpr absent]
    · simp only [mark, absent, and_false, if_false]
      exact ⟨rfl, rfl, rfl, rfl, id⟩
  · have live : target ∈ before.table.promises := AList.lookup_isSome.mp (by simp [found])
    have events_eq
        : (await waitScope target : PromiseStep P E).handled kj before.table = events := by
      simp [handled, PromiseTable.promise?, found, waited]
    have noResult (promiseId : UInt32)
        : ((answerOf outcome).map (fun _ => (none : Option UInt32))).toOption.join
          ≠ some promiseId := by
      cases outcome <;> simp [answerOf, Except.map, Except.toOption]
    intro promiseId
    rw [registrations_of_other (noResult promiseId), events_eq, lookup_foldl_handle,
      retired_foldl_handle]
    have tracks := (consistent promiseId).handleAll events
    rcases eq_or_ne promiseId target with rfl | different
    · rw [found, Option.map_some] at tracks
      simp only [PromiseTable.retire, AList.lookup_erase, Option.map_none]
      cases outcome with
      | fulfilled =>
          simp only [mark, answerOf, Except.map, true_and, live, if_true]
          exact tracks.succeeded (EventLoop.Promises.settled_of_wait waited)
      | rejected reason =>
          simp only [mark, answerOf, Except.map, true_and, live, if_true]
          exact tracks.spent (fun registration => ⟨rfl, .inl rfl⟩)
    · obtain ⟨promises, retired⟩ := retire_elsewhere before.table different
      rw [map_unmarked (mark_await_other different), promises, retired]
      exact tracks

/-- A live id stays live. -/
theorem keeps_cancel {target : UInt32} (consistent : before.Consistent kj)
    (ran : (cancel target : PromiseStep P E).operate kj kind before.table = some (answer, after))
    : (cancel target : PromiseStep P E).Keeps kj before answer after := by
  rcases operate_cancel ran with missing | ⟨pending, reason, found, rfl, rfl⟩
  · have absent := missing.1
    refine keeps_missing consistent missing rfl (fun registration => ?_)
      (fun _ different => mark_cancel_other different)
    simp only [mark, PromiseTable.promise?, AList.lookup_eq_none.mpr absent]
    split_ifs
    · exact ⟨rfl, rfl, rfl, rfl, id⟩
    · exact ⟨rfl, rfl, rfl, rfl, id⟩
  · refine keeps_of_target consistent rfl rfl ?_ (fun _ different => mark_cancel_other different)
      (fun _ different => ⟨AList.lookup_insert_ne different, Iff.rfl⟩)
    have tracks := consistent target
    rw [found] at tracks
    simp only [mark, PromiseTable.promise?, AList.lookup_insert, Except.isOk, Except.toBool,
      and_self, if_true, Option.map_some, Option.getD_some]
    exact tracks.canceled reason

/-- Releasing a promise keeps the run consistent. -/
theorem keeps_release {target : UInt32} (consistent : before.Consistent kj)
    (ran : (release target : PromiseStep P E).operate kj kind before.table = some (answer, after))
    : (release target : PromiseStep P E).Keeps kj before answer after := by
  rcases operate_release ran with missing | ⟨live, rfl, rfl⟩
  · refine keeps_missing consistent missing rfl (fun registration => ?_)
      (fun _ different => mark_release_other different)
    simp only [mark]
    split_ifs
    · exact ⟨rfl, rfl, rfl, rfl, fun _ => rfl⟩
    · exact ⟨rfl, rfl, rfl, rfl, id⟩
  · refine keeps_of_target consistent rfl rfl ?_ (fun _ different => mark_release_other different)
      (fun _ different => retire_elsewhere before.table different)
    obtain ⟨pending, found⟩ := exists_pending live
    have tracks := consistent target
    rw [found] at tracks
    simp only [PromiseTable.retire, AList.lookup_erase, mark, Except.isOk, Except.toBool,
      and_self, if_true]
    exact tracks.spent (fun registration => ⟨rfl, .inr (.inr rfl)⟩)

/-- Every step keeps the run consistent, by cases. -/
theorem keeps (consistent : before.Consistent kj)
    (ran : step.operate kj kind before.table = some (answer, after))
    : step.Keeps kj before answer after := by
  cases step with
  | create promise =>
      obtain ⟨⟨stored, left⟩, added, same⟩ := Option.map_eq_some_iff.mp ran
      obtain ⟨rfl, rfl⟩ := Prod.mk.inj same
      exact keeps_create consistent added
  | combine op => exact keeps_combine consistent ran
  | await waitScope target => exact keeps_await consistent ran
  | cancel target => exact keeps_cancel consistent ran
  | release target => exact keeps_release consistent ran
  | turn event =>
      obtain ⟨rfl, rfl⟩ := Prod.mk.inj (Option.some.inj ran)
      exact keeps_turn consistent event

-----------------------------------------------------------------------------------------
-- When an await is truthful
-----------------------------------------------------------------------------------------

/-- The successes of a step are about resolved promises. -/
def SucceedsTruthfully (kj : Promises P E) (before : PromiseRun P)
    (answer : Except String (Option UInt32)) (after : PromiseTable P) (step : PromiseStep P E)
    : Prop :=
  ∀ success ∈ step.successes (step.registrations kj before answer after) answer,
    ∃ registration, success = some registration ∧ registration.Resolved kj

/-- A retired id has resolved exactly when an await of its own has succeeded and nothing else
was done to it.
-/
theorem resolved_iff_of_closed {registration : Registration P} (closed : registration.Closed kj)
    : registration.Resolved kj
      ↔ registration.succeeded = true ∧ registration.released = false
        ∧ registration.canceled = false := by
  constructor
  · intro ⟨_, notFailed, notConsumed, notReleased, notCanceled⟩
    refine ⟨?_, notReleased, notCanceled⟩
    by_contra unsuccessful
    have spent := closed.spent (Bool.eq_false_iff.mpr unsuccessful)
    simp [notFailed, notConsumed, notReleased] at spent
  · intro ⟨succeeded, notReleased, notCanceled⟩
    obtain ⟨resolved, notFailed, notConsumed⟩ := closed.truthful succeeded
    exact ⟨resolved, notFailed, notConsumed, notReleased, notCanceled⟩

/-- An await without a promise is truthful. -/
theorem truthful_await_missing {waitScope : List E} {target : UInt32}
    (consistent : before.Consistent kj)
    (missing : AnsweredMissing before.table target answer after)
    : (await waitScope target : PromiseStep P E).SucceedsTruthfully kj before answer after
      ↔ AwaitsOwn kj before (await waitScope target : PromiseStep P E) := by
  obtain ⟨absent, rfl, ⟨retired, rfl⟩ | ⟨unknown, message, rfl⟩⟩ := missing
  · have tracks := consistent target
    rw [AList.lookup_eq_none.mpr absent] at tracks
    obtain ⟨found, registered, closed⟩ := tracks retired
    have idle : (await waitScope target : PromiseStep P E).handled kj before.table = [] := by
      simp [handled, PromiseTable.promise?, AList.lookup_eq_none.mpr absent]
    have unmarked (found : Registration P)
        : mark before.table before.table (.ok none) target found
            (await waitScope target : PromiseStep P E)
          = found :=
      if_neg (fun both => absent both.2)
    have same
        : (await waitScope target : PromiseStep P E).registrations kj before (.ok none)
            before.table target
          = some found := by
      rw [registrations_of_idle (by simp [Except.toOption]) idle, map_unmarked unmarked, registered]
    simp only [SucceedsTruthfully, successes, Except.isOk, Except.toBool, if_true, same,
      List.mem_singleton, forall_eq, AwaitsOwn, absent, if_false, retired, forall_const, registered,
      Option.some.injEq, exists_eq_left']
    exact resolved_iff_of_closed closed
  · refine iff_of_true (fun success member => ?_) ?_
    · simp [successes, Except.isOk, Except.toBool] at member
    · simp only [AwaitsOwn, absent, if_false]
      exact fun retired => absurd retired unknown

/-- An await is truthful exactly if it awaits its own promise. -/
theorem truthful_await_live {waitScope events : List E} {target : UInt32}
    {pending : PendingPromise P} {outcome : Outcome} (consistent : before.Consistent kj)
    (found : before.table.promises.lookup target = some pending)
    (waited : kj.wait waitScope pending.promise = some (outcome, events))
    : (await waitScope target : PromiseStep P E).SucceedsTruthfully kj before
          ((answerOf outcome).map (fun _ => none)) after
      ↔ AwaitsOwn kj before (await waitScope target : PromiseStep P E) := by
  have live : target ∈ before.table.promises := AList.lookup_isSome.mp (by simp [found])
  have tracks := consistent target
  rw [found] at tracks
  obtain ⟨registration, registered, holds⟩ := tracks
  have final := holds.promise ▸ EventLoop.Promises.settled_of_wait waited
  simp only [AwaitsOwn, live, if_true, registered, Option.some.injEq, forall_eq']
  cases outcome with
  | rejected reason =>
      refine iff_of_true (fun success member => ?_) (fun _ resolved => ?_)
      · simp [successes, answerOf, Except.map, Except.isOk, Except.toBool] at member
      · have kept := EventLoop.Promises.settled_handleAll resolved events
        simp [final] at kept
  | fulfilled =>
      have events_eq
          : (await waitScope target : PromiseStep P E).handled kj before.table = events := by
        simp [handled, PromiseTable.promise?, found, waited]
      have same
          : (await waitScope target : PromiseStep P E).registrations kj before (.ok none) after
              target
            = some { registration with
                promise := kj.handleAll events registration.promise
                succeeded := true } := by
        rw [registrations_of_other (by simp [Except.toOption]), events_eq, registered]
        simp [mark, live]
      simp only [SucceedsTruthfully, successes, answerOf, Except.map, Except.isOk, Except.toBool,
        if_true, same, List.mem_singleton, forall_eq, Option.some.injEq, exists_eq_left']
      obtain ⟨-, notFailed, notConsumed, notReleased⟩ := holds.unspent
      constructor
      · intro resolved canceled
        exact absurd (resolved.2.2.2.2.symm.trans canceled) (by simp)
      · intro own
        refine ⟨final, notFailed, notConsumed, notReleased, ?_⟩
        by_contra canceled
        obtain ⟨outcome, settled⟩ := holds.settled (by simpa using canceled)
        have kept := EventLoop.Promises.settled_handleAll settled events
        obtain rfl : Outcome.fulfilled = outcome := Option.some.inj (final.symm.trans kept)
        exact own (by simpa using canceled) settled

/-- A step is truthful exactly if what it awaits is its own. -/
theorem succeedsTruthfully_iff (consistent : before.Consistent kj)
    (ran : step.operate kj kind before.table = some (answer, after))
    : step.SucceedsTruthfully kj before answer after ↔ AwaitsOwn kj before step := by
  cases step with
  | await waitScope target =>
      rcases operate_await ran with missing | ⟨pending, outcome, events, found, waited, rfl, -⟩
      · exact truthful_await_missing consistent missing
      · exact truthful_await_live consistent found waited
  | _ => exact iff_of_true (fun _ member => nomatch member) trivial

/-- A step of a run operates on the table and adds to the registrations and successes. -/
theorem run_eq_some {after : PromiseRun P} (ran : step.run kj kind before = some after)
    : ∃ answer, step.operate kj kind before.table = some (answer, after.table)
        ∧ after.registrations = step.registrations kj before answer after.table
        ∧ after.successes
          = before.successes ++ step.successes after.registrations answer := by
  obtain ⟨⟨answer, table⟩, operated, rfl⟩ := Option.map_eq_some_iff.mp ran
  exact ⟨answer, operated, rfl, rfl⟩

/-- Every step of a run keeps it consistent. -/
theorem consistent_run {after : PromiseRun P} (consistent : before.Consistent kj)
    (ran : step.run kj kind before = some after)
    : after.Consistent kj := by
  obtain ⟨answer, operated, registrations, -⟩ := run_eq_some ran
  intro promiseId
  rw [registrations]
  exact keeps consistent operated promiseId

/-- A run stays truthful exactly if its next step awaits its own promise. -/
theorem truthful_run_iff {after : PromiseRun P} (consistent : before.Consistent kj)
    (ran : step.run kj kind before = some after)
    : after.Truthful kj ↔ before.Truthful kj ∧ AwaitsOwn kj before step := by
  obtain ⟨answer, operated, registrations, successes⟩ := run_eq_some ran
  rw [← succeedsTruthfully_iff consistent operated, PromiseRun.Truthful, successes, registrations,
    List.forall_mem_append]
  rfl

end PromiseStep

/-- In a run of either runtime every successful await is about a promise that has resolved
successfully and was not given up, exactly when each await meets the condition.
-/
theorem awaits_truthful_iff {labels : List (PromiseStep P E)} {run : PromiseRun P}
    (ran : (promiseSystem kj kind).Run {} labels run)
    : run.Truthful kj ↔ ((promiseSystem kj kind).guard (AwaitsOwn kj)).Run {} labels run := by
  apply ran.holds_iff_guard (fun run => run.Consistent kj) (fun run => run.Truthful kj)
  · intro promiseId known
    exact absurd known (Finset.notMem_empty promiseId)
  · exact fun success member => nomatch member
  · exact fun step consistent => PromiseStep.consistent_run consistent step
  · exact fun step consistent => PromiseStep.truthful_run_iff consistent step

/-- Witness: a promise is created and awaited, and resolves during the wait. -/
theorem awaits_truthful_iff_timer
    : ∃ labels run,
        run.successes.length = 1
        ∧ (run.Truthful EventLoop.Term.promises
          ↔ ((promiseSystem EventLoop.Term.promises .kjAsync).guard
              (AwaitsOwn EventLoop.Term.promises)).Run {} labels run) := by
  let labels : List (PromiseStep EventLoop.Term EventLoop.Settled) :=
    [.create (.source 0), .await [⟨0, .fulfilled⟩] 1]
  let once (run : PromiseRun EventLoop.Term) : Bool := run.successes.length = 1
  have replayed
      : ∃ run, (promiseSystem EventLoop.Term.promises .kjAsync).Run {} labels run
          ∧ once run = true :=
    Transition.exists_run_of_replay labels once (by decide)
  obtain ⟨run, ran, succeeded⟩ := replayed
  exact ⟨labels, run, of_decide_eq_true succeeded, awaits_truthful_iff ran⟩

/-- In both runtimes, awaiting a promise that was released before it resolved returns success. -/
theorem released_await_succeeds
    : ¬ ∃ kind, ∀ run, (promiseSystem EventLoop.Term.promises kind).Reachable run →
        run.Truthful EventLoop.Term.promises := by
  intro ⟨kind, always⟩
  let labels : List (PromiseStep EventLoop.Term EventLoop.Settled) :=
    [.create (.source 0), .release 1, .await [] 1]
  let released (run : PromiseRun EventLoop.Term) : Bool :=
    run.successes.any (fun success => success.any Registration.released)
  have replayed
      : ∃ run, (promiseSystem EventLoop.Term.promises kind).Reachable run ∧ released run = true :=
    Transition.exists_reachable_of_replay labels released (by cases kind <;> decide)
  obtain ⟨run, reached, shown⟩ := replayed
  obtain ⟨success, member, spent⟩ := List.any_eq_true.mp shown
  obtain ⟨registration, rfl, -, -, -, kept, -⟩ := always run reached success member
  exact absurd (spent.symm.trans kept) (by decide)

end Capnp.KjAsync
