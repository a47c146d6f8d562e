import Mathlib.Logic.Basic

/-! Promises of an event loop, as far as code that stores and combines them relies on them: how
they are combined, what an event does to one, and that a settled promise stays as it is.
A promise as a term that events reduce has all of this.
-/

namespace EventLoop

/-- What a settled promise holds. -/
inductive Outcome where
  | fulfilled
  | rejected (reason : String)
deriving DecidableEq

/-- The operations on promises of type `P` in a loop that handles events of type `E`. A canceler
is known by a number; `Wrapped canceler` are the promises that it still can cancel.
-/
structure Promises (P E : Type) where
  wrap : Nat → P → P
  andThen : P → P → P
  recover : P → P → P
  joinAll : List P → P
  exclusiveJoin : P → P → P
  handle : E → P → P
  cancel : Nat → String → P → P
  outcome : P → Option Outcome
  Wrapped : Nat → P → Prop
  wrapped_wrap : ∀ canceler promise, Wrapped canceler (wrap canceler promise)
  wrapped_handle
    : ∀ {canceler promise} event, Wrapped canceler promise →
        Wrapped canceler (handle event promise)
  wrapped_cancel
    : ∀ {canceler promise} other reason, Wrapped canceler promise →
        Wrapped canceler (cancel other reason promise)
  settled_handle
    : ∀ {promise result} event, outcome promise = some result →
        outcome (handle event promise) = some result
  settled_cancel
    : ∀ {promise result} canceler reason, outcome promise = some result →
        outcome (cancel canceler reason promise) = some result
  canceled
    : ∀ {canceler promise} reason, Wrapped canceler promise → outcome promise = none →
        outcome (cancel canceler reason promise) = some (.rejected reason)

section Waiting

variable {P E : Type} (promises : Promises P E)

def Promises.handleAll (events : List E) (promise : P) : P :=
  events.foldl (fun promise event => promises.handle event promise) promise

/-- The loop handles events until the promise has settled: the outcome and the events handled.
There is none while the events that come do not settle the promise.
-/
def Promises.wait : List E → P → Option (Outcome × List E)
  | [], promise => (promises.outcome promise).map (fun outcome => (outcome, []))
  | event :: rest, promise =>
      match promises.outcome promise with
      | some outcome => some (outcome, [])
      | none =>
          (Promises.wait rest (promises.handle event promise)).map
            (fun (outcome, handled) => (outcome, event :: handled))

variable {promises}

/-- The promise stands settled after the events that were handled, by induction on them. -/
theorem Promises.settled_of_wait {events handled : List E} {promise : P} {outcome : Outcome}
    (waited : promises.wait events promise = some (outcome, handled))
    : promises.outcome (promises.handleAll handled promise) = some outcome := by
  induction events generalizing promise handled with
  | nil =>
      obtain ⟨found, settled, same⟩ := Option.map_eq_some_iff.mp waited
      obtain ⟨rfl, rfl⟩ := Prod.mk.inj same
      exact settled
  | cons event rest ih =>
      rw [Promises.wait] at waited
      cases settled : promises.outcome promise with
      | none =>
          simp only [settled] at waited
          obtain ⟨⟨found, later⟩, waiting, same⟩ := Option.map_eq_some_iff.mp waited
          obtain ⟨rfl, rfl⟩ := Prod.mk.inj same
          have later := ih waiting
          exact later
      | some found =>
          simp only [settled, Option.some.injEq, Prod.mk.injEq] at waited
          obtain ⟨rfl, rfl⟩ := waited
          exact settled

/-- A settled promise stays settled, by induction on the events. -/
theorem Promises.settled_handleAll {promise : P} {outcome : Outcome}
    (settled : promises.outcome promise = some outcome) (events : List E)
    : promises.outcome (promises.handleAll events promise) = some outcome := by
  induction events generalizing promise with
  | nil => exact settled
  | cons event rest ih => exact ih (promises.settled_handle event settled)

/-- A wrapped promise stays wrapped, by induction on the events. -/
theorem Promises.wrapped_handleAll {promise : P} {canceler : Nat}
    (wrapped : promises.Wrapped canceler promise) (events : List E)
    : promises.Wrapped canceler (promises.handleAll events promise) := by
  induction events generalizing promise with
  | nil => exact wrapped
  | cons event rest ih => exact ih (promises.wrapped_handle event wrapped)

end Waiting

-----------------------------------------------------------------------------------------
-- Promises as terms
-----------------------------------------------------------------------------------------

/-- A promise as far as it has got. A source is settled from outside. -/
inductive Term where
  | done (outcome : Outcome)
  | source (id : Nat)
  | wrapped (canceler : Nat) (inner : Term)
  | chained (first second : Term)
  | recovering (first fallback : Term)
  | joined (left right : Term)
  | racing (left right : Term)
deriving DecidableEq

/-- A source settles. -/
structure Settled where
  source : Nat
  outcome : Outcome

namespace Term

def outcome : Term → Option Outcome
  | done outcome => some outcome
  | _ => none

def wrap (canceler : Nat) : Term → Term
  | done outcome => done outcome
  | inner => wrapped canceler inner

def andThen : Term → Term → Term
  | done .fulfilled, second => second
  | done (.rejected reason), _ => done (.rejected reason)
  | first, second => chained first second

def recover : Term → Term → Term
  | done .fulfilled, _ => done .fulfilled
  | done (.rejected _), fallback => fallback
  | first, fallback => recovering first fallback

/-- Both promises are waited for; the left one's failure is reported first. -/
def join : Term → Term → Term
  | done .fulfilled, right => right
  | done (.rejected reason), done _ => done (.rejected reason)
  | left, done .fulfilled => left
  | left, right => joined left right

/-- The promise that settles first; the left one when both have. -/
def exclusiveJoin : Term → Term → Term
  | done outcome, _ => done outcome
  | _, done outcome => done outcome
  | left, right => racing left right

/-- The step of each node, from what becomes of a source and of a canceler's promise. -/
def react (settled : Nat → Option Outcome) (canceled : Nat → Option String) : Term → Term
  | done outcome => done outcome
  | source id => ((settled id).map done).getD (source id)
  | wrapped canceler inner =>
      match canceled canceler with
      | some reason => done (.rejected reason)
      | none => wrap canceler (react settled canceled inner)
  | chained first second => andThen (react settled canceled first) (react settled canceled second)
  | recovering first fallback =>
      recover (react settled canceled first) (react settled canceled fallback)
  | joined left right => join (react settled canceled left) (react settled canceled right)
  | racing left right => exclusiveJoin (react settled canceled left) (react settled canceled right)

def handle (event : Settled) : Term → Term :=
  react (fun id => if id = event.source then some event.outcome else none) (fun _ => none)

def cancel (canceler : Nat) (reason : String) : Term → Term :=
  react (fun _ => none) (fun other => if other = canceler then some reason else none)

/-- Settled, or under the canceler's node. -/
def Wrapped (canceler : Nat) (promise : Term) : Prop :=
  (∃ outcome, promise = done outcome) ∨ ∃ inner, promise = wrapped canceler inner

/-- A new wrapper is one. -/
theorem wrapped_wrap (canceler : Nat) (promise : Term)
    : Wrapped canceler (wrap canceler promise) := by
  cases promise with
  | done outcome => exact .inl ⟨outcome, rfl⟩
  | _ => exact .inr ⟨_, rfl⟩

/-- A wrapped term stays wrapped. -/
theorem Wrapped.react {canceler : Nat} {promise : Term} (under : Wrapped canceler promise)
    (settled : Nat → Option Outcome) (canceled : Nat → Option String)
    : Wrapped canceler (react settled canceled promise) := by
  rcases under with ⟨outcome, rfl⟩ | ⟨inner, rfl⟩
  · exact .inl ⟨outcome, rfl⟩
  · rw [Term.react]
    cases canceled canceler with
    | some reason => exact .inl ⟨_, rfl⟩
    | none => exact wrapped_wrap canceler _

/-- A settled term stays settled. -/
theorem react_of_settled {promise : Term} {result : Outcome}
    (settled : promise.outcome = some result) (sources : Nat → Option Outcome)
    (cancelers : Nat → Option String)
    : (promise.react sources cancelers).outcome = some result := by
  cases promise with
  | done outcome => exact settled
  | _ => simp [outcome] at settled

/-- The terms, with the events that settle their sources. -/
def promises : Promises Term Settled where
  wrap := wrap
  andThen := andThen
  recover := recover
  joinAll := fun promises => promises.foldr join (done .fulfilled)
  exclusiveJoin := exclusiveJoin
  handle := handle
  cancel := cancel
  outcome := outcome
  Wrapped := Wrapped
  wrapped_wrap := wrapped_wrap
  wrapped_handle := fun _ under => under.react _ _
  wrapped_cancel := fun _ _ under => under.react _ _
  settled_handle := fun _ settled => react_of_settled settled _ _
  settled_cancel := fun _ _ settled => react_of_settled settled _ _
  canceled := by
    intro canceler promise reason under unsettled
    rcases under with ⟨result, rfl⟩ | ⟨inner, rfl⟩
    · simp [outcome] at unsettled
    · simp [cancel, react, outcome]

end Term

end EventLoop
