import Capnp.Library.Table
import Capnp.Library.Transition

/-! The rendezvous of a third-party hand-off in one vat. The party that is awaited and the one
that completes meet in an exchange under a token; whoever comes first makes it, and the handle
of the awaiting side removes it.
-/

namespace Capnp.Rpc

/-- A promise and its fulfiller. `token` is the one the exchange was made under. -/
structure ThirdPartyExchange (Value : Type*) where
  token : UInt64
  value : Option Value := none
deriving DecidableEq

/-- Only the first value that a fulfiller is given counts. -/
def ThirdPartyExchange.fulfill {Value : Type*} (value : Value)
    (exchange : ThirdPartyExchange Value) : ThirdPartyExchange Value :=
  { exchange with value := some (exchange.value.getD value) }

/-- A branch of the promise of an exchange, which outlives the exchange. `late` says that it was
asked for when the token's await handle had been dropped.
-/
structure ThirdPartyCompletion where
  token : UInt64
  exchange : Nat
  late : Bool
deriving DecidableEq

/-- The exchanges of a vat, numbered in the order they are made, and the completions so far.
`awaited` records the value given with each token, `handles` the await handles that are held,
`dropped` the tokens of those that were dropped.
-/
structure ThirdPartyVat (Value : Type*) where
  tphExchanges : Table UInt64 Nat := ∅
  exchanges : List (ThirdPartyExchange Value) := []
  completions : List ThirdPartyCompletion := []
  awaited : Table UInt64 Value := ∅
  handles : List UInt64 := []
  dropped : List UInt64 := []

namespace ThirdPartyVat

variable {Value : Type*}

def getThirdPartyExchange (token : UInt64) (vat : ThirdPartyVat Value)
    : Nat × ThirdPartyVat Value :=
  match vat.tphExchanges.lookup token with
  | some exchange => (exchange, vat)
  | none =>
      (vat.exchanges.length,
        { vat with
          tphExchanges := vat.tphExchanges.insert token vat.exchanges.length
          exchanges := vat.exchanges ++ [{ token }] })

def eraseThirdPartyExchange (token : UInt64) (vat : ThirdPartyVat Value) : ThirdPartyVat Value :=
  { vat with tphExchanges := vat.tphExchanges.erase token }

/-- The value goes to the token's exchange; the handle will release the token. -/
def awaitThirdParty (token : UInt64) (value : Value) (vat : ThirdPartyVat Value)
    : ThirdPartyVat Value :=
  let (exchange, vat) := vat.getThirdPartyExchange token
  { vat with
    exchanges := vat.exchanges.modify exchange (fun exchange => exchange.fulfill value)
    awaited := vat.awaited.insert token value
    handles := vat.handles ++ [token] }

def completeThirdParty (token : UInt64) (vat : ThirdPartyVat Value) : ThirdPartyVat Value :=
  let (exchange, vat) := vat.getThirdPartyExchange token
  { vat with
    completions :=
      vat.completions ++ [{ token, exchange, late := decide (token ∈ vat.dropped) }] }

/-- The destructor of `TokenRelease`. -/
def dropHandle (token : UInt64) (vat : ThirdPartyVat Value) : ThirdPartyVat Value :=
  { vat.eraseThirdPartyExchange token with
    handles := vat.handles.erase token
    dropped := vat.dropped ++ [token] }

end ThirdPartyVat

/-- What happens to exchanges. -/
inductive ThirdPartyOp (Value : Type*) where
  | awaitThirdParty (token : UInt64) (value : Value)
  | completeThirdParty (token : UInt64)
  | dropHandle (token : UInt64)

variable {Value : Type*}

/-- Only a handle that is held can be dropped. -/
def ThirdPartyOp.run (vat : ThirdPartyVat Value)
    : ThirdPartyOp Value → Option (ThirdPartyVat Value)
  | .awaitThirdParty token value => some (vat.awaitThirdParty token value)
  | .completeThirdParty token => some (vat.completeThirdParty token)
  | .dropHandle token => if token ∈ vat.handles then some (vat.dropHandle token) else none

def thirdPartySystem (Value : Type*)
    : Transition.System (ThirdPartyVat Value) (ThirdPartyOp Value) :=
  .ofFunction {} (fun vat op => op.run vat)

/-- `newToken` counts up, and `introduceTo` gives each token to one party to await, so that the
awaited tokens are distinct.
-/
def AwaitsNewToken (vat : ThirdPartyVat Value) : ThirdPartyOp Value → Prop
  | .awaitThirdParty token _ => token ∉ vat.awaited
  | _ => True

instance (vat : ThirdPartyVat Value) (op : ThirdPartyOp Value)
    : Decidable (AwaitsNewToken vat op) :=
  match op with
  | .awaitThirdParty token _ => inferInstanceAs (Decidable (token ∉ vat.awaited))
  | .completeThirdParty _ | .dropHandle _ => inferInstanceAs (Decidable True)

/-- Runs with any number of distinct tokens in flight. -/
def rendezvousSystem (Value : Type*)
    : Transition.System (ThirdPartyVat Value) (ThirdPartyOp Value) :=
  (thirdPartySystem Value).guard AwaitsNewToken

/-- What a completion has received. -/
def ThirdPartyVat.received (vat : ThirdPartyVat Value) (completion : ThirdPartyCompletion)
    : Option Value :=
  vat.exchanges[completion.exchange]?.bind ThirdPartyExchange.value

/-- Every completion in time has received exactly what was awaited under its token, as soon as
that was given, and no exchange is left under a token whose handle was dropped.
-/
structure ThirdPartyVat.Rendezvous (vat : ThirdPartyVat Value) : Prop where
  received
    : ∀ completion ∈ vat.completions, completion.late = false →
        vat.received completion = vat.awaited.lookup completion.token
  released : ∀ token ∈ vat.dropped, token ∉ vat.tphExchanges

/-- The completion does not come after the token's handle was dropped. -/
def CompletesInTime (vat : ThirdPartyVat Value) : ThirdPartyOp Value → Prop
  | .completeThirdParty token => token ∉ vat.dropped
  | _ => True

instance (vat : ThirdPartyVat Value) (op : ThirdPartyOp Value)
    : Decidable (CompletesInTime vat op) :=
  match op with
  | .completeThirdParty token => inferInstanceAs (Decidable (token ∉ vat.dropped))
  | .awaitThirdParty .. | .dropHandle _ => inferInstanceAs (Decidable True)

-----------------------------------------------------------------------------------------
-- What holds in every run with distinct tokens
-----------------------------------------------------------------------------------------

namespace ThirdPartyVat

/-- An exchange in the table was made under its token, and until the handle is dropped it holds
what was awaited there, also for the completions that ask for it.
-/
structure Kept (vat : ThirdPartyVat Value) : Prop where
  entry
    : ∀ {token number}, vat.tphExchanges.lookup token = some number →
        ∃ exchange, vat.exchanges[number]? = some exchange ∧ exchange.token = token
          ∧ (token ∉ vat.dropped → exchange.value = vat.awaited.lookup token)
  branch
    : ∀ completion ∈ vat.completions,
        ∃ exchange, vat.exchanges[completion.exchange]? = some exchange
          ∧ exchange.token = completion.token
          ∧ (completion.late = false →
              exchange.value = vat.awaited.lookup completion.token)
  current
    : ∀ completion ∈ vat.completions, completion.token ∉ vat.dropped →
        vat.tphExchanges.lookup completion.token = some completion.exchange
  met : ∀ {token}, token ∈ vat.awaited → token ∉ vat.dropped → token ∈ vat.tphExchanges
  droppedAwaited : ∀ {token}, token ∈ vat.dropped → token ∈ vat.awaited
  heldAwaited : ∀ {token}, token ∈ vat.handles → token ∈ vat.awaited
  heldNotDropped : ∀ {token}, token ∈ vat.handles → token ∉ vat.dropped
  heldOnce : vat.handles.Nodup

/-- No exchange is open at first. -/
theorem Kept.initial : Kept ({} : ThirdPartyVat Value) where
  entry := by simp
  branch := by simp
  current := by simp
  met := by simp
  droppedAwaited := by simp
  heldAwaited := by simp
  heldNotDropped := by simp
  heldOnce := .nil

/-- Until its handle is dropped, the exchange of a token that was not awaited holds nothing, and
an exchange with a token that was awaited is in the table.
-/
theorem Kept.not_dropped {vat : ThirdPartyVat Value} (kept : vat.Kept) {token : UInt64}
    (new : token ∉ vat.awaited)
    : token ∉ vat.dropped :=
  fun dropped => new (kept.droppedAwaited dropped)

/-- The exchange of a token stands in the table afterwards, and nothing else has changed but
that it may be a new one.
-/
structure Finds (before : ThirdPartyVat Value) (token : UInt64) (number : Nat)
    (after : ThirdPartyVat Value)
    : Prop where
  kept : after.Kept
  found : after.tphExchanges.lookup token = some number
  keys : ∀ other, other ∈ after.tphExchanges ↔ other = token ∨ other ∈ before.tphExchanges
  completions : after.completions = before.completions
  awaited : after.awaited = before.awaited
  handles : after.handles = before.handles
  dropped : after.dropped = before.dropped

/-- The exchange of a token is found or made. -/
theorem Kept.finds {vat : ThirdPartyVat Value} (kept : vat.Kept) (token : UInt64)
    : Finds vat token (vat.getThirdPartyExchange token).1 (vat.getThirdPartyExchange token).2 := by
  unfold getThirdPartyExchange
  cases found : vat.tphExchanges.lookup token with
  | some number =>
      refine ⟨kept, found, fun other => (or_iff_right_of_imp ?_).symm, rfl, rfl, rfl, rfl⟩
      rintro rfl
      exact AList.lookup_isSome.mp (by simp [found])
  | none =>
      have absent : token ∉ vat.tphExchanges := AList.lookup_eq_none.mp found
      have later {number : Nat} {exchange : ThirdPartyExchange Value}
          (old : vat.exchanges[number]? = some exchange)
          : (vat.exchanges ++ [ThirdPartyExchange.mk token none])[number]? = some exchange := by
        rw [List.getElem?_append_left (List.getElem?_eq_some_iff.mp old).1, old]
      refine ⟨?_, AList.lookup_insert _, fun other => AList.mem_insert _, rfl, rfl, rfl, rfl⟩
      refine {
        entry := ?_
        branch := ?_
        current := ?_
        met := fun member open_ => (AList.mem_insert _).mpr (.inr (kept.met member open_))
        droppedAwaited := kept.droppedAwaited
        heldAwaited := kept.heldAwaited
        heldNotDropped := kept.heldNotDropped
        heldOnce := kept.heldOnce
      }
      · intro other number looked
        rcases eq_or_ne other token with rfl | different
        · rw [AList.lookup_insert] at looked
          obtain rfl := Option.some.inj looked
          refine ⟨{ token := other }, by simp, rfl, fun open_ => ?_⟩
          exact (AList.lookup_eq_none.mpr (fun member => absent (kept.met member open_))).symm
        · rw [AList.lookup_insert_ne different] at looked
          obtain ⟨exchange, stored, its⟩ := kept.entry looked
          exact ⟨exchange, later stored, its⟩
      · intro completion member
        obtain ⟨exchange, stored, its⟩ := kept.branch completion member
        exact ⟨exchange, later stored, its⟩
      · intro completion member open_
        have looked := kept.current completion member open_
        have different : completion.token ≠ token := by
          rintro same
          rw [same, found] at looked
          cases looked
        exact (AList.lookup_insert_ne different).trans looked

/-- A token that is awaited for the first time: its exchange gets the value. -/
theorem Kept.await {vat : ThirdPartyVat Value} (kept : vat.Kept) {token : UInt64}
    (new : token ∉ vat.awaited) (value : Value)
    : (vat.awaitThirdParty token value).Kept := by
  have finds := kept.finds token
  unfold awaitThirdParty
  generalize vat.getThirdPartyExchange token = got at finds
  obtain ⟨number, got⟩ := got
  obtain ⟨gotKept, found, -, -, awaited, handles, dropped⟩ := finds
  dsimp only at gotKept found awaited handles dropped ⊢
  rw [← awaited] at new
  have open_ := gotKept.not_dropped new
  have unmet : got.awaited.lookup token = none := AList.lookup_eq_none.mpr new
  have at_number {exchange : ThirdPartyExchange Value}
      (stored : got.exchanges[number]? = some exchange)
      : exchange.token = token := by
    obtain ⟨other, same, its, -⟩ := gotKept.entry found
    rw [stored] at same
    exact Option.some.inj same ▸ its
  refine {
    entry := ?_
    branch := ?_
    current := gotKept.current
    met := ?_
    droppedAwaited := fun member => (AList.mem_insert _).mpr (.inr (gotKept.droppedAwaited member))
    heldAwaited := ?_
    heldNotDropped := ?_
    heldOnce := ?_
  }
  · intro other index looked
    obtain ⟨exchange, stored, its, holds⟩ := gotKept.entry looked
    rcases eq_or_ne index number with rfl | elsewhere
    · obtain rfl := (at_number stored).symm.trans its
      refine ⟨exchange.fulfill value, by simp [stored], its, fun _ => ?_⟩
      rw [AList.lookup_insert, ThirdPartyExchange.fulfill, holds open_, unmet]
      rfl
    · have different : other ≠ token := by
        rintro rfl
        exact elsewhere (Option.some.inj (looked.symm.trans found))
      refine ⟨exchange, by simp [Ne.symm elsewhere, stored], its, fun stillOpen => ?_⟩
      rw [AList.lookup_insert_ne different]
      exact holds stillOpen
  · intro completion member
    obtain ⟨exchange, stored, its, holds⟩ := gotKept.branch completion member
    rcases eq_or_ne completion.exchange number with here | elsewhere
    · have same : completion.token = token := its.symm.trans (at_number (here ▸ stored))
      refine ⟨exchange.fulfill value, by simp [here ▸ stored, here], its, fun inTime => ?_⟩
      rw [same, AList.lookup_insert, ThirdPartyExchange.fulfill, holds inTime, same, unmet]
      rfl
    · have different : completion.token ≠ token := by
        intro same
        have looked := gotKept.current completion member (same ▸ open_)
        rw [same, found] at looked
        exact elsewhere (Option.some.inj looked).symm
      refine ⟨exchange, by simp [Ne.symm elsewhere, stored], its, fun inTime => ?_⟩
      rw [AList.lookup_insert_ne different]
      exact holds inTime
  · intro other member stillOpen
    rcases (AList.mem_insert _).mp member with rfl | old
    · exact AList.lookup_isSome.mp (by simp [found])
    · exact gotKept.met old stillOpen
  · intro other held
    rcases List.mem_append.mp held with old | new
    · exact (AList.mem_insert _).mpr (.inr (gotKept.heldAwaited old))
    · exact (AList.mem_insert _).mpr (.inl (List.mem_singleton.mp new))
  · intro other held
    rcases List.mem_append.mp held with old | new
    · exact gotKept.heldNotDropped old
    · exact List.mem_singleton.mp new ▸ open_
  · rw [← List.concat_eq_append]
    exact gotKept.heldOnce.concat (fun held => new (gotKept.heldAwaited held))

/-- A completion gets a branch of the exchange that stands under its token. -/
theorem Kept.complete {vat : ThirdPartyVat Value} (kept : vat.Kept) (token : UInt64)
    : (vat.completeThirdParty token).Kept := by
  have finds := kept.finds token
  unfold completeThirdParty
  generalize vat.getThirdPartyExchange token = got at finds
  obtain ⟨number, got⟩ := got
  obtain ⟨gotKept, found, -, -, -, -, -⟩ := finds
  dsimp only at gotKept found ⊢
  refine { gotKept with branch := ?_, current := ?_ }
  · intro completion member
    rcases List.mem_append.mp member with old | new
    · exact gotKept.branch completion old
    · obtain rfl := List.mem_singleton.mp new
      obtain ⟨exchange, stored, its, holds⟩ := gotKept.entry found
      exact ⟨exchange, stored, its, fun inTime => holds (of_decide_eq_false inTime)⟩
  · intro completion member open_
    rcases List.mem_append.mp member with old | new
    · exact gotKept.current completion old open_
    · obtain rfl := List.mem_singleton.mp new
      exact found

/-- Dropping the handle takes the exchange out of the table, and no branch loses its value. -/
theorem Kept.drop {vat : ThirdPartyVat Value} (kept : vat.Kept) {token : UInt64}
    (held : token ∈ vat.handles)
    : (vat.dropHandle token).Kept := by
  have still {other : UInt64} (open_ : other ∉ vat.dropped ++ [token])
      : other ∉ vat.dropped ∧ other ≠ token := by
    simpa using open_
  refine {
    entry := ?_
    branch := kept.branch
    current := ?_
    met := ?_
    droppedAwaited := ?_
    heldAwaited := fun member => kept.heldAwaited (List.mem_of_mem_erase member)
    heldNotDropped := ?_
    heldOnce := kept.heldOnce.erase token
  }
  · intro other number looked
    have different : other ≠ token := by
      rintro rfl
      simp [dropHandle, eraseThirdPartyExchange] at looked
    obtain ⟨exchange, stored, its, holds⟩ :=
      kept.entry ((AList.lookup_erase_ne different).symm.trans looked)
    exact ⟨exchange, stored, its, fun open_ => holds (still open_).1⟩
  · intro completion member open_
    exact (AList.lookup_erase_ne (still open_).2).trans
      (kept.current completion member (still open_).1)
  · intro other member open_
    exact AList.mem_erase.mpr ⟨(still open_).2, kept.met member (still open_).1⟩
  · intro other member
    rcases List.mem_append.mp member with old | new
    · exact kept.droppedAwaited old
    · obtain rfl := List.mem_singleton.mp new
      exact kept.heldAwaited held
  · intro other member dropped
    obtain ⟨different, stillHeld⟩ := (kept.heldOnce.mem_erase_iff).mp member
    rcases List.mem_append.mp dropped with old | new
    · exact kept.heldNotDropped stillHeld old
    · exact different (List.mem_singleton.mp new)

/-- Every operation keeps the exchanges, by cases. -/
theorem Kept.step {before after : ThirdPartyVat Value} {op : ThirdPartyOp Value}
    (step : (rendezvousSystem Value).step before op after) (kept : before.Kept)
    : after.Kept := by
  obtain ⟨allowed, ran⟩ := step
  cases op with
  | awaitThirdParty token value =>
      obtain rfl := Option.some.inj ran
      exact kept.await allowed value
  | completeThirdParty token =>
      obtain rfl := Option.some.inj ran
      exact kept.complete token
  | dropHandle token =>
      obtain ⟨held, same⟩ := Option.ite_none_right_eq_some.mp ran
      obtain rfl := Option.some.inj same
      exact kept.drop held

-----------------------------------------------------------------------------------------
-- When the rendezvous is kept
-----------------------------------------------------------------------------------------

/-- Only what is left in the table depends on the order of the steps. -/
theorem Kept.rendezvous_iff {vat : ThirdPartyVat Value} (kept : vat.Kept)
    : vat.Rendezvous ↔ ∀ token ∈ vat.dropped, token ∉ vat.tphExchanges := by
  refine ⟨fun rendezvous => rendezvous.released, fun released => ⟨?_, released⟩⟩
  intro completion member inTime
  obtain ⟨exchange, stored, -, holds⟩ := kept.branch completion member
  rw [received, stored]
  exact holds inTime

/-- An exchange comes back under a dropped token exactly through a late completion. -/
theorem Kept.rendezvous_step {before after : ThirdPartyVat Value} {op : ThirdPartyOp Value}
    (step : (rendezvousSystem Value).step before op after) (kept : before.Kept)
    : after.Rendezvous ↔ before.Rendezvous ∧ CompletesInTime before op := by
  rw [(kept.step step).rendezvous_iff, kept.rendezvous_iff]
  obtain ⟨allowed, ran⟩ := step
  cases op with
  | awaitThirdParty token value =>
      obtain rfl := Option.some.inj ran
      have finds := kept.finds token
      have open_ := kept.not_dropped allowed
      have dropped : (before.awaitThirdParty token value).dropped = before.dropped := finds.dropped
      have keys (other : UInt64) (gone : other ∈ before.dropped)
          : other ∈ (before.awaitThirdParty token value).tphExchanges
            ↔ other ∈ before.tphExchanges :=
        (finds.keys other).trans (or_iff_right (fun same => open_ (same ▸ gone)))
      simp only [dropped, CompletesInTime, and_true]
      exact forall₂_congr (fun other gone => not_congr (keys other gone))
  | completeThirdParty token =>
      obtain rfl := Option.some.inj ran
      have finds := kept.finds token
      have dropped : (before.completeThirdParty token).dropped = before.dropped := finds.dropped
      have keys (other : UInt64)
          : other ∈ (before.completeThirdParty token).tphExchanges
            ↔ other = token ∨ other ∈ before.tphExchanges := finds.keys other
      simp only [dropped, keys, not_or, CompletesInTime]
      constructor
      · intro released
        exact ⟨fun other gone => (released other gone).2, fun gone => (released token gone).1 rfl⟩
      · rintro ⟨released, inTime⟩ other gone
        exact ⟨fun same => inTime (same ▸ gone), released other gone⟩
  | dropHandle token =>
      obtain ⟨held, same⟩ := Option.ite_none_right_eq_some.mp ran
      obtain rfl := Option.some.inj same
      have open_ := kept.heldNotDropped held
      simp only [dropHandle, eraseThirdPartyExchange, List.mem_append, List.mem_singleton,
        AList.mem_erase, CompletesInTime, and_true]
      constructor
      · intro released other gone member
        exact released other (.inl gone) ⟨fun same => open_ (same ▸ gone), member⟩
      · rintro released other (gone | rfl) ⟨different, member⟩
        · exact released other gone member
        · exact different rfl

end ThirdPartyVat

open ThirdPartyVat in
/-- In every run with distinct tokens the rendezvous is kept exactly when no completion comes
after the await handle of its token was dropped.
-/
theorem rendezvous_iff_inTime {ops : List (ThirdPartyOp Value)} {vat : ThirdPartyVat Value}
    (run : (rendezvousSystem Value).Run {} ops vat)
    : vat.Rendezvous ↔ ((rendezvousSystem Value).guard CompletesInTime).Run {} ops vat :=
  run.holds_iff_guard Kept Rendezvous Kept.initial (Kept.initial.rendezvous_iff.mpr (by simp))
    Kept.step Kept.rendezvous_step

/-- A token that is completed before and after it is awaited, and dropped then. -/
theorem rendezvous_iff_inTime_twice
    : ∃ vat : ThirdPartyVat Nat,
        (rendezvousSystem Nat).Reachable vat
        ∧ vat.completions.length = 2
        ∧ vat.dropped = [1]
        ∧ vat.Rendezvous := by
  let ops : List (ThirdPartyOp Nat) :=
    [.completeThirdParty 1, .awaitThirdParty 1 7, .completeThirdParty 1, .dropHandle 1]
  let checks (vat : ThirdPartyVat Nat) : Bool :=
    decide (vat.completions.length = 2) && decide (vat.dropped = [1])
  let allowed (vat : ThirdPartyVat Nat) (op : ThirdPartyOp Nat) : Prop :=
    AwaitsNewToken vat op ∧ CompletesInTime vat op
  have replayed
      : ∃ vat, ((thirdPartySystem Nat).guard allowed).Reachable vat ∧ checks vat = true :=
    Transition.exists_guarded_of_replay allowed ops checks (by decide)
  obtain ⟨vat, reached, checked⟩ := replayed
  have both : ((rendezvousSystem Nat).guard CompletesInTime).Reachable vat :=
    reached.mono id (fun step => ⟨step.1.2, step.1.1, step.2⟩)
  obtain ⟨first, labels, rfl, run⟩ := both
  simp only [checks, Bool.and_eq_true, decide_eq_true_eq] at checked
  exact ⟨vat, ⟨{}, labels, rfl, run.unguard⟩, checked.1, checked.2,
    (rendezvous_iff_inTime run.unguard).mpr run⟩

/-- A completion that comes after the handle was dropped makes an exchange that stays. -/
theorem not_rendezvous_late
    : ¬ ∀ vat : ThirdPartyVat Nat, (rendezvousSystem Nat).Reachable vat → vat.Rendezvous := by
  intro always
  let ops : List (ThirdPartyOp Nat) :=
    [.awaitThirdParty 1 7, .dropHandle 1, .completeThirdParty 1]
  let checks (vat : ThirdPartyVat Nat) : Bool :=
    decide (1 ∈ vat.dropped) && decide (1 ∈ vat.tphExchanges)
  have replayed : ∃ vat, (rendezvousSystem Nat).Reachable vat ∧ checks vat = true :=
    Transition.exists_guarded_of_replay AwaitsNewToken ops checks (by decide)
  obtain ⟨vat, reached, checked⟩ := replayed
  simp only [checks, Bool.and_eq_true, decide_eq_true_eq] at checked
  exact (always vat reached).released 1 checked.1 checked.2

end Capnp.Rpc
