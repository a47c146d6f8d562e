import Capnp.Rpc.Targets
import Capnp.Rpc.PromiseCapability

/-! Awaiting a handle and releasing it in a `finally`.
Pending calls and register promises keep their live handles in a table each; one model
with the kind of handle as a parameter covers both. Other clients act on the same table
between any two moments of the wrapper.
-/

namespace Capnp.Rpc

/-- The handles that a client waits for. -/
inductive HandleKind where
  | pendingCall
  | registerPromise
deriving DecidableEq

/-- What an operation on a missing handle says before the id. -/
def HandleKind.unknownHandle : HandleKind → String
  | .pendingCall => "unknown pending RPC call id: "
  | .registerPromise => "unknown RPC register promise id: "

def HandleKind.unknown (kind : HandleKind) (handle : UInt32) : String :=
  kind.unknownHandle ++ toString handle.toNat

def invalidRuntime : String := "Capnp.Rpc runtime handle is invalid or already released"

def shuttingDown : String := "Capnp.Rpc runtime is shutting down"

/-- A runtime's table of one kind of handle. `active` holds the cancelers of register
promises that are being awaited. The runtime is unregistered before it stops, and its
worker ends after that.
-/
structure HandleRuntime where
  registered : Bool := true
  stopping : Bool := false
  ended : Bool := false
  live : Table UInt32 Nat := ∅
  active : Table UInt32 Nat := ∅
  nextId : UInt32 := 1
  created : Nat := 0

/-- `addPendingCall` and `addRegisterPromise`. -/
def addHandle (runtime : HandleRuntime) : Option (UInt32 × HandleRuntime) :=
  (allocateId runtime.live (runtime.live.keys.length + 1) runtime.nextId).map
    (fun (handle, next) =>
      (handle,
        { runtime with
          live := runtime.live.insert handle runtime.created
          nextId := next
          created := runtime.created + 1 }))

/-- Processing an await takes the handle out of the table, found or not; a register promise
leaves its canceler behind.
-/
def takeForAwait (kind : HandleKind) (handle : UInt32) (runtime : HandleRuntime)
    : Except String Nat × HandleRuntime :=
  match runtime.live.lookup handle with
  | none => (.error (kind.unknown handle), runtime)
  | some promise =>
      (.ok promise,
        { runtime with
          live := runtime.live.erase handle
          active :=
            match kind with
            | .pendingCall => runtime.active
            | .registerPromise => runtime.active.insert handle promise })

/-- The completion of an await drops the canceler again. -/
def finishAwait (kind : HandleKind) (handle : UInt32) (runtime : HandleRuntime) : HandleRuntime :=
  match kind with
  | .pendingCall => runtime
  | .registerPromise => { runtime with active := runtime.active.erase handle }

/-- `releasePendingCall` and `releaseRegisterPromise`. Only the latter looks for an active
canceler.
-/
def releaseHandle (kind : HandleKind) (handle : UInt32) (runtime : HandleRuntime)
    : Except String Unit × HandleRuntime :=
  if handle ∈ runtime.live then (.ok (), { runtime with live := runtime.live.erase handle })
  else if kind = .registerPromise ∧ handle ∈ runtime.active then
    (.ok (), { runtime with active := runtime.active.erase handle })
  else (.error (kind.unknown handle), runtime)

/-- What happens to handles. -/
inductive HandleOp where
  | start
  | take (handle : UInt32)
  | finish (handle : UInt32)
  | release (handle : UInt32)
  | unregister
  | stop
  | endWorker

/-- Table operations happen while the worker runs. The worker ends after the runtime has
stopped, and clears its tables; an event loop that throws is outside this model.
-/
def HandleOp.run (kind : HandleKind) (runtime : HandleRuntime) : HandleOp → Option HandleRuntime
  | .start => if runtime.ended then none else (addHandle runtime).map Prod.snd
  | .take handle => if runtime.ended then none else some (takeForAwait kind handle runtime).2
  | .finish handle => if runtime.ended then none else some (finishAwait kind handle runtime)
  | .release handle => if runtime.ended then none else some (releaseHandle kind handle runtime).2
  | .unregister => some { runtime with registered := false }
  | .stop => some { runtime with stopping := true }
  | .endWorker =>
      if runtime.stopping then some { runtime with ended := true, live := ∅, active := ∅ }
      else none

/-- The other clients took the runtime from one state to a later one. -/
def Later (kind : HandleKind) (before after : HandleRuntime) : Prop :=
  ∃ ops, Transition.replay (HandleOp.run kind) before ops = some after

/-- An exception of KJ with what its description tells. -/
structure KjException where
  description : String
  type : ExceptionType
  remoteTrace : Option String := none
  detail : Option String := none

def kjExceptionTypeName : ExceptionType → String
  | .failed => "FAILED"
  | .overloaded => "OVERLOADED"
  | .disconnected => "DISCONNECTED"
  | .unimplemented => "UNIMPLEMENTED"

def describeKjException (e : KjException) : String :=
  e.description ++ "\nexception type: " ++ kjExceptionTypeName e.type
    ++ (match e.remoteTrace with
      | none => ""
      | some trace => "\nremote trace: " ++ trace)
    ++ (match e.detail with
      | none => ""
      | some detail => "\nremote detail[1]: " ++ detail)

/-- How the runtime meets an operation of a client, and its state then: the operation is
turned away with a text, or processed.
-/
inductive Meeting where
  | turnedAway (text : String) (runtime : HandleRuntime)
  | processed (runtime : HandleRuntime)

/-- From the call to its processing: the client looks the runtime up, enqueues, and the
worker dequeues, each at its own moment.
-/
inductive Meets (kind : HandleKind) (called : HandleRuntime) : Meeting → Prop
  | invalid {looked} (first : Later kind called looked) (gone : looked.registered = false)
    : Meets kind called (.turnedAway invalidRuntime looked)
  | rejected {looked queued} (first : Later kind called looked)
    (there : looked.registered = true) (second : Later kind looked queued)
    (closed : queued.stopping = true)
    : Meets kind called (.turnedAway shuttingDown queued)
  | dequeued {looked queued met} (first : Later kind called looked)
    (there : looked.registered = true) (second : Later kind looked queued)
    (accepting : queued.stopping = false) (third : Later kind queued met)
    (running : met.ended = false)
    : Meets kind called (.processed met)

/-- How an awaited promise ends: with a result, with an exception, or with a response that
the Lean side cannot decode.
-/
inductive Outcome (Value : Type*) where
  | returned (result : Value)
  | failed (e : KjException)
  | undecodable (what message : String)

variable {Value : Type*}

def Outcome.answer : Outcome Value → Except String Value
  | .returned result => .ok result
  | .failed e => .error (describeKjException e)
  | .undecodable what message => .error ("invalid " ++ what ++ ": " ++ message)

/-- A completed await: how the runtime met it, its answer, and the state it completed in. -/
inductive Awaits (kind : HandleKind) (handle : UInt32) (called : HandleRuntime)
    : Meeting → Except String Value → HandleRuntime → Prop
  | turnedAway {text runtime} (meets : Meets kind called (.turnedAway text runtime))
    : Awaits kind handle called (.turnedAway text runtime) (.error text) runtime
  | unknown {met} (meets : Meets kind called (.processed met)) (missing : handle ∉ met.live)
    : Awaits kind handle called (.processed met) (.error (kind.unknown handle)) met
  | resolved {met resolves} (meets : Meets kind called (.processed met))
    (found : handle ∈ met.live) (waits : Later kind (takeForAwait kind handle met).2 resolves)
    (running : resolves.ended = false) (outcome : Outcome Value)
    : Awaits kind handle called (.processed met) outcome.answer (finishAwait kind handle resolves)

/-- The answer of a release and the state it leaves, by how the runtime met it. -/
def Meeting.release (kind : HandleKind) (handle : UInt32)
    : Meeting → Except String Unit × HandleRuntime
  | .turnedAway text runtime => (.error text, runtime)
  | .processed runtime => releaseHandle kind handle runtime

/-- `try action finally finalizer`: an error of the finalizer wins. -/
def tryFinally (answer : Except String Value) (finalizer : Except String Unit)
    : Except String Value :=
  match finalizer with
  | .ok _ => answer
  | .error text => .error text

/-- `withRelease handle` around one await, which is `awaitAndRelease`,
`awaitPayloadRefAndRelease` and `awaitTargetAndRelease` for their values. The indices are how
the runtime met the await and the release, what the await alone answered, what the wrapper
answers, and the state it leaves.
-/
inductive WithRelease (kind : HandleKind) (handle : UInt32) (called : HandleRuntime)
    : Meeting → Meeting → Except String Value → Except String Value → HandleRuntime → Prop
  | run {awaited released answer between}
    (awaits : Awaits kind handle called awaited answer between)
    (releases : Meets kind between released)
    : WithRelease kind handle called awaited released answer
        (tryFinally answer (released.release kind handle).1) (released.release kind handle).2

/-- Whether a release would find something under the handle. -/
def InUse (kind : HandleKind) (handle : UInt32) (runtime : HandleRuntime) : Prop :=
  handle ∈ runtime.live ∨ (kind = .registerPromise ∧ handle ∈ runtime.active)

/-- The condition on the two meetings. Either the await never takes the handle and the
release meets the same, or the handle is in use again when the release is processed.
-/
def KeepsAnswer (kind : HandleKind) (handle : UInt32) : Meeting → Meeting → Prop
  | .turnedAway text _, .turnedAway other runtime => text = other ∧ handle ∉ runtime.live
  | .turnedAway _ _, .processed released => InUse kind handle released
  | .processed _, .turnedAway _ _ => False
  | .processed awaited, .processed released =>
      handle ∈ awaited.live → InUse kind handle released

-----------------------------------------------------------------------------------------
-- The texts tell the ways to fail apart
-----------------------------------------------------------------------------------------

/-- Ids are written in digits. -/
theorem newline_notMem_unknownHandle (kind : HandleKind) (id : Nat)
    : '\n' ∉ (kind.unknownHandle ++ toString id).toList := by
  have digits : '\n' ∉ Nat.toDigits 10 id := by
    intro member
    have digit := Nat.isDigit_of_mem_toDigits (by decide) (by decide) member
    exact absurd digit (by decide)
  cases kind <;> simp [HandleKind.unknownHandle, digits]

/-- A description has several lines. -/
theorem newline_mem_describe (e : KjException) : '\n' ∈ (describeKjException e).toList := by
  simp [describeKjException]

/-- The texts with which a runtime turns an operation away. -/
def turnedAwayTexts : List String := [invalidRuntime, shuttingDown]

/-- A call that is turned away is so with one of the texts. -/
theorem Meets.text_mem {kind : HandleKind} {called runtime : HandleRuntime} {text : String}
    (meets : Meets kind called (.turnedAway text runtime))
    : text ∈ turnedAwayTexts := by
  cases meets <;> simp [turnedAwayTexts]

/-- The error for an unknown handle is none of them. -/
theorem unknownHandle_notMem_turnedAway (kind : HandleKind) (id : Nat)
    : kind.unknownHandle ++ toString id ∉ turnedAwayTexts := by
  intro member
  simp only [turnedAwayTexts, List.mem_cons, List.not_mem_nil, or_false] at member
  rcases member with same | same <;> have chars := congrArg String.toList same
  · cases kind <;> simp [HandleKind.unknownHandle, invalidRuntime] at chars
  · cases kind <;> simp [HandleKind.unknownHandle, shuttingDown] at chars

/-- A processed await never fails with the text of a missing handle. -/
theorem Outcome.answer_ne_unknown (outcome : Outcome Value) (kind : HandleKind) (id : Nat)
    : outcome.answer ≠ .error (kind.unknownHandle ++ toString id) := by
  cases outcome with
  | returned result => simp [Outcome.answer]
  | failed e =>
      intro same
      have text : describeKjException e = kind.unknownHandle ++ toString id := by
        simpa [Outcome.answer] using same
      exact newline_notMem_unknownHandle kind id (text ▸ newline_mem_describe e)
  | undecodable what message =>
      intro same
      have text : "invalid " ++ what ++ ": " ++ message = kind.unknownHandle ++ toString id := by
        simpa [Outcome.answer] using same
      have chars := congrArg String.toList text
      cases kind <;> simp [HandleKind.unknownHandle] at chars

/-- A processed await never fails with a text that turns operations away. -/
theorem Outcome.answer_ne_turnedAway (outcome : Outcome Value) {text : String}
    (turnedAway : text ∈ turnedAwayTexts)
    : outcome.answer ≠ .error text := by
  have shape : '\n' ∉ text.toList ∧ text.toList.head? = some 'C' := by
    simp only [turnedAwayTexts, List.mem_cons, List.not_mem_nil, or_false] at turnedAway
    rcases turnedAway with rfl | rfl <;> simp [invalidRuntime, shuttingDown]
  cases outcome with
  | returned result => simp [Outcome.answer]
  | failed e =>
      intro same
      have described : describeKjException e = text := by simpa [Outcome.answer] using same
      exact shape.1 (described ▸ newline_mem_describe e)
  | undecodable what message =>
      intro same
      have described : "invalid " ++ what ++ ": " ++ message = text := by
        simpa [Outcome.answer] using same
      have first := shape.2
      rw [← described] at first
      simp at first

-----------------------------------------------------------------------------------------
-- When the wrapper keeps the answer
-----------------------------------------------------------------------------------------

/-- Releasing a handle in use succeeds and leaves it dead; otherwise it fails and changes
nothing.
-/
theorem releaseHandle_spec (kind : HandleKind) (handle : UInt32) (runtime : HandleRuntime)
    : (InUse kind handle runtime →
        (releaseHandle kind handle runtime).1 = .ok ()
        ∧ handle ∉ (releaseHandle kind handle runtime).2.live)
      ∧ (¬ InUse kind handle runtime →
          releaseHandle kind handle runtime = (.error (kind.unknown handle), runtime)
          ∧ handle ∉ runtime.live) := by
  unfold releaseHandle InUse
  by_cases live : handle ∈ runtime.live
  · simp [live]
  · by_cases active : kind = .registerPromise ∧ handle ∈ runtime.active
    · simp [live, active]
    · simp [live, active]

/-- The wrapper returns what the await alone returned and leaves the handle dead exactly
when the await and the release meet the runtime alike, or the release finds the id in use
after the await took the handle.
-/
theorem withRelease_keeps_answer_iff {kind : HandleKind} {handle : UInt32}
    {called after : HandleRuntime} {awaited released : Meeting}
    {answer result : Except String Value}
    (wrapped : WithRelease kind handle called awaited released answer result after)
    : (result = answer ∧ handle ∉ after.live) ↔ KeepsAnswer kind handle awaited released := by
  obtain ⟨awaits, releases⟩ := wrapped
  cases released with
  | turnedAway other runtime =>
      have away := releases.text_mem
      cases awaits with
      | turnedAway meets =>
          simp only [Meeting.release, tryFinally, KeepsAnswer, Except.error.injEq, eq_comm]
      | unknown meets missing =>
          have different : kind.unknown handle ≠ other := by
            rintro rfl
            exact unknownHandle_notMem_turnedAway kind handle.toNat away
          simp [Meeting.release, tryFinally, KeepsAnswer, Ne.symm different]
      | resolved meets found waits running outcome =>
          have different := outcome.answer_ne_turnedAway away
          simp [Meeting.release, tryFinally, KeepsAnswer, Ne.symm different]
  | processed met =>
      obtain ⟨succeeds, fails⟩ := releaseHandle_spec kind handle met
      by_cases used : InUse kind handle met
      · obtain ⟨released, dead⟩ := succeeds used
        have keeps : KeepsAnswer kind handle awaited (.processed met) := by
          cases awaited with
          | turnedAway text runtime => exact used
          | processed before => exact fun _ => used
        simp only [Meeting.release, released, tryFinally, dead, not_false_eq_true, and_self,
          keeps]
      · obtain ⟨failed, dead⟩ := fails used
        simp only [Meeting.release, failed, tryFinally, dead, not_false_eq_true, and_true]
        cases awaits with
        | turnedAway meets =>
            have different : ∀ text ∈ turnedAwayTexts, kind.unknown handle ≠ text := by
              rintro text away rfl
              exact unknownHandle_notMem_turnedAway kind handle.toNat away
            simp [KeepsAnswer, used, different _ meets.text_mem]
        | unknown meets missing => simp [KeepsAnswer, missing]
        | resolved meets found waits running outcome =>
            have different := outcome.answer_ne_unknown kind handle.toNat
            simpa [KeepsAnswer, found, used, HandleKind.unknown, eq_comm] using different

-----------------------------------------------------------------------------------------
-- Two runs on one handle
-----------------------------------------------------------------------------------------

/-- A runtime that has handed out one handle. -/
def oneHandle : HandleRuntime where
  live := AList.insert 1 0 ∅
  nextId := 2
  created := 1

/-- Without other clients an operation is processed in the state it was called in. -/
theorem Meets.alone {kind : HandleKind} {called : HandleRuntime}
    (registered : called.registered = true) (accepting : called.stopping = false)
    (running : called.ended = false)
    : Meets kind called (.processed called) :=
  .dequeued ⟨[], rfl⟩ registered ⟨[], rfl⟩ accepting ⟨[], rfl⟩ running

/-- Another client awaits the handle first, so the await and the release both miss it. -/
theorem withRelease_keeps_answer_iff_taken
    : Later .pendingCall {} oneHandle ∧ 1 ∈ oneHandle.live
      ∧ ∃ (awaited released : Meeting) (answer result : Except String Nat) (after : HandleRuntime),
          WithRelease .pendingCall 1 oneHandle awaited released answer result after
          ∧ result = answer ∧ 1 ∉ after.live := by
  refine ⟨⟨[.start], rfl⟩, by decide, ?_⟩
  let taken := (takeForAwait .pendingCall 1 oneHandle).2
  have meets : Meets .pendingCall oneHandle (.processed taken) :=
    .dequeued ⟨[.take 1], rfl⟩ rfl ⟨[], rfl⟩ rfl ⟨[], rfl⟩ rfl
  have wrapped : @WithRelease Nat .pendingCall 1 oneHandle _ _ _ _ _ :=
    .run (.unknown meets (by decide)) (.alone rfl rfl rfl)
  have missing : KeepsAnswer .pendingCall 1 (.processed taken) (.processed taken) :=
    fun found => absurd found (by decide)
  exact ⟨_, _, _, _, _, wrapped, (withRelease_keeps_answer_iff wrapped).mpr missing⟩

/-- One client alone awaits its live handle and gets a value; the wrapper throws instead. -/
theorem withRelease_loses_answer
    : (Later .pendingCall {} oneHandle ∧ Later .registerPromise {} oneHandle
        ∧ 1 ∈ oneHandle.live)
      ∧ (∃ awaited released after,
          WithRelease .pendingCall 1 oneHandle awaited released (.ok "pong")
            (.error "unknown pending RPC call id: 1") after)
      ∧ ∃ awaited released after,
          WithRelease .registerPromise 1 oneHandle awaited released (.ok "pong")
            (.error "unknown RPC register promise id: 1") after := by
  have alone (kind : HandleKind) : Meets kind oneHandle (.processed oneHandle) :=
    .alone rfl rfl rfl
  refine ⟨⟨⟨[.start], rfl⟩, ⟨[.start], rfl⟩, by decide⟩, ?_, ?_⟩
  · exact ⟨_, _, _, .run (.resolved (alone _) (by decide) ⟨[], rfl⟩ rfl (.returned "pong"))
      (.alone rfl rfl rfl)⟩
  · exact ⟨_, _, _, .run (.resolved (alone _) (by decide) ⟨[], rfl⟩ rfl (.returned "pong"))
      (.alone rfl rfl rfl)⟩

end Capnp.Rpc
