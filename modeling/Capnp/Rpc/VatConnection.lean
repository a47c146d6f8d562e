import Capnp.Library.Transition
import Mathlib.Logic.Function.Iterate

/-! Messages on one generic-vat connection. An unblocked send is delivered by an event of its
own; a blocked one waits on a branch of the current gate, which `unblock` opens and a further
`block` replaces.
-/

namespace Capnp.Rpc

/-- Two queues run together: `choices` says which of them goes next, and without a choice the
left one goes first.
-/
def interleave {α : Type*} : List Bool → List α → List α → List α
  | true :: choices, first :: left, right => first :: interleave choices left right
  | false :: choices, left, first :: right => first :: interleave choices left right
  | _, left, right => left ++ right

/-- Without a choice the left queue goes first. -/
@[simp] theorem interleave_nil_choices {α : Type*} (left right : List α)
    : interleave [] left right = left ++ right := by
  simp [interleave]

/-- With an empty left queue there is nothing to choose. -/
@[simp] theorem interleave_nil_left {α : Type*} (choices : List Bool) (right : List α)
    : interleave choices [] right = right := by
  induction choices generalizing right with
  | nil => simp
  | cons choice rest ih =>
      cases choice with
      | true => simp [interleave]
      | false => cases right <;> simp [interleave, ih]

/-- Nor is there with an empty right one. -/
@[simp] theorem interleave_nil_right {α : Type*} (choices : List Bool) (left : List α)
    : interleave choices left [] = left := by
  induction choices generalizing left with
  | nil => simp
  | cons choice rest ih =>
      cases choice with
      | true => cases left <;> simp [interleave, ih]
      | false => simp [interleave]

/-- `currentBlock` holds the branches of the current gate, `readyTasks` the continuations
that may run. `sent` and `delivered` list the messages, `delivered` those in the partner's
queue, and `blockedAt` counts the messages sent before the connection was last blocked.
-/
structure VatConnection (Msg : Type*) where
  partner : Bool := true
  networkException : Bool := false
  currentBlock : Option (List Msg) := none
  readyTasks : List Msg := []
  failedTasks : List Msg := []
  sent : List Msg := []
  delivered : List Msg := []
  blockedAt : Nat := 0
deriving DecidableEq

namespace VatConnection

variable {Msg : Type*}

/-- `accepted` is the answer of the send handler, true where there is none. -/
def send (message : Msg) (accepted : Bool) (connection : VatConnection Msg) : VatConnection Msg :=
  if connection.networkException then connection
  else if !accepted then connection
  else
    let connection := { connection with sent := connection.sent ++ [message] }
    match connection.currentBlock with
    | some waiting => { connection with currentBlock := some (waiting ++ [message]) }
    | none => { connection with readyTasks := connection.readyTasks ++ [message] }

/-- The fulfiller of a gate that is replaced is dropped, which fails its branches. -/
def block (connection : VatConnection Msg) : VatConnection Msg :=
  { connection with
    failedTasks := connection.failedTasks ++ connection.currentBlock.getD []
    currentBlock := some []
    blockedAt :=
      if connection.currentBlock.isNone then connection.sent.length else connection.blockedAt }

/-- The branches run in order; when they run among the continuations scheduled before is up
to the event loop.
-/
def unblock (choices : List Bool) (connection : VatConnection Msg) : VatConnection Msg :=
  match connection.currentBlock with
  | none => connection
  | some waiting =>
      { connection with
        currentBlock := none
        readyTasks := interleave choices connection.readyTasks waiting }

def disconnect (connection : VatConnection Msg) : VatConnection Msg :=
  { connection with
    networkException := true
    currentBlock := connection.currentBlock.map (fun _ => [])
    readyTasks := [] }

/-- The partner's destructor. -/
def dropPartner (connection : VatConnection Msg) : VatConnection Msg :=
  { connection with partner := false }

/-- The event loop runs the next continuation. -/
def turn (connection : VatConnection Msg) : VatConnection Msg :=
  match connection.readyTasks with
  | [] => connection
  | message :: rest =>
      { connection with
        readyTasks := rest
        delivered :=
          if connection.partner then connection.delivered ++ [message]
          else connection.delivered }

/-- All events have run. -/
def runEvents (connection : VatConnection Msg) : VatConnection Msg :=
  turn^[connection.readyTasks.length] connection

/-- With a partner every ready message is delivered, by induction on the ready ones. -/
theorem runEvents_eq {connection : VatConnection Msg} (partner : connection.partner = true)
    : connection.runEvents
      = { connection with
          readyTasks := []
          delivered := connection.delivered ++ connection.readyTasks } := by
  unfold runEvents
  generalize ready : connection.readyTasks = messages
  induction messages generalizing connection with
  | nil =>
      cases connection
      subst ready
      simp
  | cons message rest ih =>
      have next
          : connection.turn
            = { connection with
                readyTasks := rest
                delivered := connection.delivered ++ [message] } := by
        simp [turn, ready, partner]
      rw [List.length_cons, Function.iterate_succ_apply, next]
      refine (ih ?_ rfl).trans ?_
      · exact partner
      · simp

end VatConnection

/-- What may happen on a connection. -/
inductive VatConnectionOp (Msg : Type*) where
  | send (message : Msg) (accepted : Bool)
  | block
  | unblock (choices : List Bool)
  | disconnect
  | dropPartner
  | turn

/-- The event loop's choices where it makes any. -/
def VatConnectionOp.choices? {Msg : Type*} : VatConnectionOp Msg → Option (List Bool)
  | .unblock choices => some choices
  | _ => none

def VatConnectionOp.run {Msg : Type*} (connection : VatConnection Msg)
    : VatConnectionOp Msg → VatConnection Msg
  | .send message accepted => connection.send message accepted
  | .block => connection.block
  | .unblock choices => connection.unblock choices
  | .disconnect => connection.disconnect
  | .dropPartner => connection.dropPartner
  | .turn => connection.turn

def vatConnectionSystem (Msg : Type*)
    : Transition.System (VatConnection Msg) (VatConnectionOp Msg) :=
  .ofFunction {} (fun connection op => some (op.run connection))

-----------------------------------------------------------------------------------------
-- Runs that keep every message
-----------------------------------------------------------------------------------------

/-- Neither end of the connection goes away. -/
def StaysConnected {Msg : Type*} (_ : VatConnection Msg) : VatConnectionOp Msg → Prop
  | .disconnect => False
  | .dropPartner => False
  | _ => True

/-- `block` finds no message behind the current gate, and the messages behind a gate that is
opened run after the ones sent before it was closed.
-/
def KeepsMessages {Msg : Type*} (connection : VatConnection Msg) : VatConnectionOp Msg → Prop
  | .block => connection.currentBlock.getD [] = []
  | .unblock choices =>
      interleave choices connection.readyTasks (connection.currentBlock.getD [])
      = connection.readyTasks ++ connection.currentBlock.getD []
  | _ => True

/-- What the operations themselves can see to: a gate is replaced only while nothing waits
behind it, and opened only after everything sent before it was closed has been delivered.
-/
def DrainsBeforeUnblock {Msg : Type*} (connection : VatConnection Msg)
    : VatConnectionOp Msg → Prop
  | .block => connection.currentBlock.getD [] = []
  | .unblock _ => connection.currentBlock.isSome → connection.readyTasks = []
  | _ => True

instance {Msg : Type*} (connection : VatConnection Msg) (op : VatConnectionOp Msg)
    : Decidable (StaysConnected connection op) :=
  match op with
  | .disconnect => .isFalse id
  | .dropPartner => .isFalse id
  | .send _ _ => .isTrue trivial
  | .block => .isTrue trivial
  | .unblock _ => .isTrue trivial
  | .turn => .isTrue trivial

instance {Msg : Type*} [DecidableEq Msg] (connection : VatConnection Msg)
    (op : VatConnectionOp Msg) : Decidable (KeepsMessages connection op) :=
  match op with
  | .block => inferInstanceAs (Decidable (_ = _))
  | .unblock _ => inferInstanceAs (Decidable (_ = _))
  | .send _ _ => .isTrue trivial
  | .disconnect => .isTrue trivial
  | .dropPartner => .isTrue trivial
  | .turn => .isTrue trivial

/-- The messages sent are delivered, ready or waiting, in this order; behind a gate wait those
sent since it was closed.
-/
structure VatConnection.InOrder {Msg : Type*} (connection : VatConnection Msg) : Prop where
  partner : connection.partner = true
  connected : connection.networkException = false
  messages
    : connection.delivered ++ connection.readyTasks ++ connection.currentBlock.getD []
      = connection.sent
  blocked
    : ∀ waiting, connection.currentBlock = some waiting →
        connection.blockedAt ≤ connection.sent.length
        ∧ connection.delivered ++ connection.readyTasks
          = connection.sent.take connection.blockedAt

namespace VatConnection.InOrder

variable {Msg : Type*} {connection : VatConnection Msg}

/-- Sending keeps the messages in order. -/
theorem send (ordered : connection.InOrder) (message : Msg) (accepted : Bool)
    : (connection.send message accepted).InOrder := by
  have connected := ordered.connected
  have messages := ordered.messages
  cases accepted with
  | false => simpa [VatConnection.send, connected] using ordered
  | true =>
      cases gate : connection.currentBlock with
      | none =>
          have sends
              : connection.send message true
                = { connection with
                    sent := connection.sent ++ [message]
                    readyTasks := connection.readyTasks ++ [message] } := by
            simp [VatConnection.send, connected, gate]
          rw [sends]
          refine ⟨ordered.partner, connected, ?_, ?_⟩
          · simp [gate, ← messages]
          · exact fun waiting same => by simp [gate] at same
      | some waiting =>
          have sends
              : connection.send message true
                = { connection with
                    sent := connection.sent ++ [message]
                    currentBlock := some (waiting ++ [message]) } := by
            simp [VatConnection.send, connected, gate]
          obtain ⟨before, blocked⟩ := ordered.blocked waiting gate
          rw [sends]
          refine ⟨ordered.partner, connected, ?_, fun _ _ => ⟨?_, ?_⟩⟩
          · simp [gate, ← messages]
          · simp only [List.length_append]
            omega
          · rw [blocked, List.take_append_of_le_length before]

/-- Blocking keeps them, where it loses none. -/
theorem block (ordered : connection.InOrder) (empty : connection.currentBlock.getD [] = [])
    : connection.block.InOrder := by
  have messages := ordered.messages
  refine ⟨ordered.partner, ordered.connected, ?_, fun _ _ => ?_⟩
  · cases gate : connection.currentBlock with
    | none => simpa [VatConnection.block, gate] using messages
    | some waiting =>
        obtain rfl : waiting = [] := by simpa [gate] using empty
        simpa [VatConnection.block, gate] using messages
  · cases gate : connection.currentBlock with
    | none =>
        rw [gate, Option.getD_none, List.append_nil] at messages
        simp [VatConnection.block, gate, messages]
    | some waiting => simpa [VatConnection.block, gate] using ordered.blocked waiting gate

/-- Opening the gate keeps them, where the released ones go last. -/
theorem unblock (ordered : connection.InOrder) {choices : List Bool}
    (inOrder
      : interleave choices connection.readyTasks (connection.currentBlock.getD [])
        = connection.readyTasks ++ connection.currentBlock.getD [])
    : (connection.unblock choices).InOrder := by
  have messages := ordered.messages
  cases gate : connection.currentBlock with
  | none => simpa [VatConnection.unblock, gate] using ordered
  | some waiting =>
      rw [gate, Option.getD_some] at inOrder messages
      refine ⟨?_, ?_, ?_, ?_⟩
      all_goals simp only [VatConnection.unblock, gate]
      · exact ordered.partner
      · exact ordered.connected
      · simpa [inOrder] using messages
      · exact fun waiting same => by simp at same

/-- A turn of the event loop delivers the next one. -/
theorem turn (ordered : connection.InOrder) : connection.turn.InOrder := by
  have messages := ordered.messages
  have blocked := ordered.blocked
  cases ready : connection.readyTasks with
  | nil => simpa [VatConnection.turn, ready] using ordered
  | cons message rest =>
      rw [ready] at messages
      refine ⟨?_, ?_, ?_, ?_⟩
      all_goals simp only [VatConnection.turn, ready, ordered.partner, if_true]
      · exact ordered.connected
      · simpa using messages
      · intro waiting gate
        obtain ⟨before, delivered⟩ := blocked waiting gate
        exact ⟨before, by simpa [ready] using delivered⟩

/-- Every operation that keeps the messages keeps them in order. -/
theorem run (ordered : connection.InOrder) {op : VatConnectionOp Msg}
    (connected : StaysConnected connection op) (keeps : KeepsMessages connection op)
    : (op.run connection).InOrder := by
  cases op with
  | send message accepted => exact ordered.send message accepted
  | block => exact ordered.block keeps
  | unblock choices => exact ordered.unblock keeps
  | disconnect => exact connected.elim
  | dropPartner => exact connected.elim
  | turn => exact ordered.turn

/-- Any condition on the operations that keeps the messages keeps them in order. -/
theorem of_reachable {condition : VatConnection Msg → VatConnectionOp Msg → Prop}
    (keeps
      : ∀ before op, condition before op →
          StaysConnected before op ∧ KeepsMessages before op)
    (reached : ((vatConnectionSystem Msg).guard condition).Reachable connection)
    : connection.InOrder := by
  apply reached.invariant VatConnection.InOrder
  · rintro first rfl
    exact ⟨rfl, rfl, rfl, fun waiting same => by simp at same⟩
  · intro before op after step ordered
    obtain ⟨met, step⟩ := step
    obtain rfl := Option.some.inj step
    obtain ⟨connected, keeps⟩ := keeps before op met
    exact ordered.run connected keeps

/-- Once the events have run, an open connection has delivered everything. -/
theorem delivered_runEvents (ordered : connection.InOrder)
    (opened : connection.currentBlock = none)
    : connection.runEvents.delivered = connection.sent := by
  have messages := ordered.messages
  rw [VatConnection.runEvents_eq ordered.partner]
  simpa [opened] using messages

end VatConnection.InOrder

/-- An event loop that runs the continuations in the order of their scheduling puts the ones
behind the gate last.
-/
theorem keepsMessages_unblock_nil {Msg : Type*} (connection : VatConnection Msg)
    : KeepsMessages connection (.unblock []) :=
  interleave_nil_choices _ _

/-- Where the earlier messages are delivered first, the event loop has no choice to make. -/
theorem keepsMessages_of_drains {Msg : Type*} {connection : VatConnection Msg}
    {op : VatConnectionOp Msg} (drains : DrainsBeforeUnblock connection op)
    : KeepsMessages connection op := by
  cases op with
  | block => exact drains
  | unblock choices =>
      cases gate : connection.currentBlock with
      | none => simp [KeepsMessages, gate]
      | some waiting =>
          have drained : connection.readyTasks = [] := drains (by simp [gate])
          simp [KeepsMessages, gate, drained]
  | send message accepted => trivial
  | disconnect => trivial
  | dropPartner => trivial
  | turn => trivial

/-- Operations that wait for the earlier messages before they open the gate lose none and
deliver in order, whatever the event loop chooses.
-/
theorem delivered_of_drains {Msg : Type*} {connection : VatConnection Msg}
    (reached
      : ((vatConnectionSystem Msg).guard (fun before op =>
          StaysConnected before op ∧ DrainsBeforeUnblock before op)).Reachable connection)
    (opened : connection.currentBlock = none)
    : connection.runEvents.delivered = connection.sent := by
  have ordered : connection.InOrder :=
    .of_reachable (fun _ _ met => ⟨met.1, keepsMessages_of_drains met.2⟩) reached
  exact ordered.delivered_runEvents opened

/-- In every run of a connection that keeps its messages, all of them have been delivered in
order once the events have run; behind a gate only those sent before it was closed.
-/
theorem messages_delivered_in_order {Msg : Type*} {connection : VatConnection Msg}
    (reached
      : ((vatConnectionSystem Msg).guard (fun before op =>
          StaysConnected before op ∧ KeepsMessages before op)).Reachable connection)
    : (connection.currentBlock = none → connection.runEvents.delivered = connection.sent)
      ∧ ∀ waiting, connection.currentBlock = some waiting →
          connection.runEvents.delivered = connection.sent.take connection.blockedAt := by
  have ordered : connection.InOrder := .of_reachable (fun _ _ met => met) reached
  refine ⟨ordered.delivered_runEvents, fun waiting gate => ?_⟩
  rw [VatConnection.runEvents_eq ordered.partner]
  exact (ordered.blocked waiting gate).2

/-- Witness: a message sent behind a gate that is opened again, after one sent before it. -/
theorem messages_delivered_in_order_gate
    : ∃ connection : VatConnection Nat, connection.sent = [1, 2]
        ∧ connection.runEvents.delivered = [1, 2] := by
  let ops : List (VatConnectionOp Nat) :=
    [.send 1 true, .turn, .block, .send 2 true, .unblock [false]]
  let checks (connection : VatConnection Nat) : Bool :=
    decide (connection.sent = [1, 2] ∧ connection.currentBlock = none)
  have replayed
      : ∃ connection,
          ((vatConnectionSystem Nat).guard (fun before op =>
            StaysConnected before op ∧ KeepsMessages before op)).Reachable connection
          ∧ checks connection = true :=
    Transition.exists_guarded_of_replay _ ops checks (by decide)
  obtain ⟨connection, reached, checked⟩ := replayed
  obtain ⟨sent, opened⟩ := of_decide_eq_true checked
  exact ⟨connection, sent, ((messages_delivered_in_order reached).1 opened).trans sent⟩

/-- A second `block` loses the message behind the first gate, also where the event loop runs
continuations in the order of their scheduling.
-/
theorem blocked_twice_loses_message
    : ¬ ∀ connection : VatConnection Nat,
        ((vatConnectionSystem Nat).guard (fun before op =>
          StaysConnected before op ∧ ∀ choices ∈ op.choices?, choices = [])).Reachable connection →
        connection.currentBlock = none → connection.runEvents.delivered = connection.sent := by
  intro always
  let ops : List (VatConnectionOp Nat) := [.block, .send 7 true, .block, .unblock []]
  let checks (connection : VatConnection Nat) : Bool :=
    decide (connection.currentBlock = none ∧ connection.sent = [7]
      ∧ connection.runEvents.delivered = [])
  have replayed
      : ∃ connection,
          ((vatConnectionSystem Nat).guard (fun before op =>
            StaysConnected before op ∧ ∀ choices ∈ op.choices?, choices = [])).Reachable connection
          ∧ checks connection = true :=
    Transition.exists_guarded_of_replay _ ops checks (by decide)
  obtain ⟨connection, reached, checked⟩ := replayed
  obtain ⟨opened, sent, delivered⟩ := of_decide_eq_true checked
  have all := always connection reached opened
  rw [delivered, sent] at all
  exact absurd all (by decide)

end Capnp.Rpc
