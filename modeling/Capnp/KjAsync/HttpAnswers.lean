import Capnp.KjAsync.HttpServer
import Capnp.Library.Ledger

/-! Each request of an HTTP server is answered once and leaves nothing behind, as long as KJ
destroys no promise whose request is still queued, pending or owed a completion.
-/

namespace Capnp.KjAsync

open Rpc (emplace)

-----------------------------------------------------------------------------------------
-- What the server owes and holds
-----------------------------------------------------------------------------------------

namespace HttpServer

/-- The completions whose continuation is still to run. -/
def toComplete (server : HttpServer) : List Nat :=
  server.requests.filterMap (fun request => request.phase.completion?)

def answered (server : HttpServer) : List Nat :=
  server.completed.map Prod.fst

def queued (server : HttpServer) : List Nat :=
  server.requestQueue.map (·.request)

/-- The requests that some queue, pending-response or body entry belongs to. -/
def entries (server : HttpServer) : List Nat :=
  server.queued ++ Table.values server.pendingResponses
    ++ (server.requestBodies.ownersOf server.serverId
      ++ server.responseBodies.ownersOf server.serverId).map (·.request)

def endedRequests (server : HttpServer) : List Nat :=
  (List.range server.requests.length).filter
    (fun number => (server.requests[number]?).any (fun request => request.phase = .ended))

/-- Requests are polled once and in arrival order, take one response, have each completion
completed once (it is, or its continuation is still there to do it), and leave nothing
behind when they end.
-/
structure AnsweredOnce (server : HttpServer) : Prop where
  polledInOrder : server.polled.Pairwise (· < ·)
  acceptedOnce : server.accepted.Nodup
  completedOnce : server.answered.Nodup
  completes
    : ∀ completion < server.completions,
        completion ∈ server.answered ∨ completion ∈ server.toComplete
  clean : ∀ number ∈ server.endedRequests, number ∉ server.entries

instance (server : HttpServer) : Decidable server.AnsweredOnce :=
  decidable_of_iff
    (server.polled.Pairwise (· < ·) ∧ server.accepted.Nodup ∧ server.answered.Nodup
      ∧ (∀ completion < server.completions,
          completion ∈ server.answered ∨ completion ∈ server.toComplete)
      ∧ ∀ number ∈ server.endedRequests, number ∉ server.entries)
    ⟨fun ⟨order, accepted, once, completes, clean⟩ => ⟨order, accepted, once, completes, clean⟩,
      fun holds => ⟨holds.polledInOrder, holds.acceptedOnce, holds.completedOnce,
        holds.completes, holds.clean⟩⟩

/-- The condition on a promise that KJ destroys: its request is not queued, no fulfiller waits
for its response, and no continuation of it owes a completion.
-/
def leavesNothing (number : Nat) (server : HttpServer) : Bool :=
  decide (number ∉ server.queued ∧ number ∉ Table.values server.pendingResponses)
    && ((server.requests[number]?).bind (fun request => request.phase.completion?)).isNone

/-- A request that has arrived under the id and not ended. -/
def Live (number : Nat) (requestId : UInt32) (server : HttpServer) : Prop :=
  ∃ request, server.requests[number]? = some request ∧ request.requestId = requestId
    ∧ request.phase ≠ .ended

/-- The requests and what is recorded about them. -/
structure Recorded (server : HttpServer) : Prop where
  order : (server.polled ++ server.queued).Pairwise (· < ·)
  arrived : ∀ number ∈ server.polled ++ server.queued, number < server.requests.length
  queue : ∀ record ∈ server.requestQueue, server.Live record.request record.requestId
  pending
    : ∀ requestId number, server.pendingResponses.lookup requestId = some number →
        server.requests[number]? = some { requestId := requestId, phase := .waiting }
  bodies
    : ∀ owner ∈ server.requestBodies.ownersOf server.serverId
          ++ server.responseBodies.ownersOf server.serverId,
        server.Live owner.request owner.requestId
  acceptedOnce : server.accepted.Nodup
  accepted
    : ∀ number ∈ server.accepted, ∃ request,
        server.requests[number]? = some request ∧ request.phase ≠ .waiting

/-- The completions and who is to complete them. -/
structure Owing (server : HttpServer) : Prop where
  ledger : Ledger server.completions (server.toComplete ++ server.answered)
  pumped : ∀ completion ∈ server.toComplete, server.pumping = some completion

/-- What every run keeps whose destroyed promises meet the condition. -/
structure Consistent (server : HttpServer) : Prop where
  recorded : server.Recorded
  owing : server.Owing

end HttpServer

/-- The condition on a step. -/
def HttpServerStep.leavesNothing (server : HttpServer) : HttpServerStep → Bool
  | .destroyPromise number => server.leavesNothing number
  | _ => true

/-- Changing one element of a list changes its share of a `filterMap`, by list induction. -/
theorem filterMap_modify_perm {α β : Type*} (part : α → Option β) (change : α → α)
    {items : List α} {index : Nat} {item : α} (found : items[index]? = some item)
    : ∃ rest, (items.filterMap part).Perm ((part item).toList ++ rest)
        ∧ ((items.modify index change).filterMap part).Perm
            ((part (change item)).toList ++ rest) := by
  have cons (head : α) (tail : List α)
      : (head :: tail).filterMap part = (part head).toList ++ tail.filterMap part := by
    cases given : part head <;> simp [given]
  induction items generalizing index with
  | nil => simp at found
  | cons head tail ih =>
      cases index with
      | zero =>
          obtain rfl : head = item := by simpa using found
          refine ⟨tail.filterMap part, ?_, ?_⟩
          · rw [cons]
          · rw [List.modify_zero_cons, cons]
      | succ index =>
          obtain ⟨rest, before, after⟩ := ih (by simpa using found)
          refine ⟨(part head).toList ++ rest, ?_, ?_⟩
          · rw [cons]
            exact (before.append_left _).trans (List.perm_append_comm_assoc _ _ _)
          · rw [List.modify_succ_cons, cons]
            exact (after.append_left _).trans (List.perm_append_comm_assoc _ _ _)

namespace HttpServer

variable {server : HttpServer} {number other : Nat} {phase : RequestPhase} {requestId : UInt32}

/-- Exactly one request changes its phase. -/
theorem getElem?_setPhase
    : (server.setPhase number phase).requests[other]?
      = if number = other then
          (server.requests[other]?).map (fun request => { request with phase := phase })
        else server.requests[other]? := by
  simp only [setPhase, List.getElem?_modify]
  split_ifs <;> simp

/-- A request stays live when its phase, or that of another request, changes short of the
end.
-/
theorem Live.setPhase (live : server.Live other requestId)
    (goesOn : number = other → phase ≠ .ended)
    : (server.setPhase number phase).Live other requestId := by
  obtain ⟨request, found, same, open_⟩ := live
  by_cases changed : number = other
  · refine ⟨{ request with phase := phase }, ?_, same, goesOn changed⟩
    simp [getElem?_setPhase, changed, found]
  · exact ⟨request, by simpa [getElem?_setPhase, changed] using found, same, open_⟩

/-- Live requests stay live when the list of arrivals grows. -/
theorem Live.arrive {after : HttpServer} {arrival : HttpRequest}
    (live : server.Live other requestId) (requests : after.requests = server.requests ++ [arrival])
    : after.Live other requestId := by
  obtain ⟨request, found, same, open_⟩ := live
  have inside : other < server.requests.length := (List.getElem?_eq_some_iff.mp found).1
  exact ⟨request, by rw [requests, List.getElem?_append_left inside, found], same, open_⟩

/-- The completions owed after a phase change, with the rest that stays. -/
theorem toComplete_setPhase {request : HttpRequest}
    (found : server.requests[number]? = some request) (phase : RequestPhase)
    : ∃ rest, server.toComplete.Perm (request.phase.completion?.toList ++ rest)
        ∧ (server.setPhase number phase).toComplete.Perm (phase.completion?.toList ++ rest) :=
  filterMap_modify_perm _ _ found

/-- A request has an entry while it is queued, waits for its response, or owns a body. -/
theorem mem_entries
    : number ∈ server.entries
      ↔ number ∈ server.queued ∨ number ∈ Table.values server.pendingResponses
        ∨ ∃ owner ∈ server.requestBodies.ownersOf server.serverId
            ++ server.responseBodies.ownersOf server.serverId,
          owner.request = number := by
  simp only [entries, List.mem_append, List.mem_map, or_assoc]

/-- The ended requests by their numbers. -/
theorem mem_endedRequests
    : number ∈ server.endedRequests
      ↔ ∃ request, server.requests[number]? = some request ∧ request.phase = .ended := by
  simp only [endedRequests, List.mem_filter, List.mem_range, Option.any_eq_true, decide_eq_true_eq]
  constructor
  · exact And.right
  · rintro ⟨request, found, ended⟩
    exact ⟨(List.getElem?_eq_some_iff.mp found).1, request, found, ended⟩

-----------------------------------------------------------------------------------------
-- The invariant says what is claimed
-----------------------------------------------------------------------------------------

/-- A live request has not ended. -/
theorem Live.not_ended (live : server.Live number requestId) : number ∉ server.endedRequests := by
  obtain ⟨request, found, _, open_⟩ := live
  intro ended
  obtain ⟨same, also, isEnded⟩ := mem_endedRequests.mp ended
  obtain rfl : request = same := Option.some.inj (found.symm.trans also)
  exact open_ isEnded

/-- A request with an entry has not ended. -/
theorem Recorded.live_of_entry (recorded : server.Recorded) (entry : number ∈ server.entries)
    : ∃ requestId, server.Live number requestId := by
  rcases mem_entries.mp entry with queued | pending | ⟨owner, member, rfl⟩
  · obtain ⟨record, member, rfl⟩ := List.mem_map.mp queued
    exact ⟨_, recorded.queue record member⟩
  · obtain ⟨requestId, found⟩ := Table.mem_values_iff.mp pending
    exact ⟨requestId, _, recorded.pending _ _ found, rfl, by simp⟩
  · exact ⟨_, recorded.bodies owner member⟩

/-- Consistent states answer no request twice. -/
theorem Consistent.answeredOnce (consistent : server.Consistent) : server.AnsweredOnce := by
  refine {
    polledInOrder := (List.pairwise_append.mp consistent.recorded.order).1
    acceptedOnce := consistent.recorded.acceptedOnce
    completedOnce := (List.nodup_append.mp consistent.owing.ledger.nodup).2.1
    completes := ?_
    clean := ?_
  }
  · intro completion issued
    exact (List.mem_append.mp (consistent.owing.ledger.mem_iff.mpr issued)).symm
  · intro number ended entry
    obtain ⟨_, live⟩ := consistent.recorded.live_of_entry entry
    exact live.not_ended ended

-----------------------------------------------------------------------------------------
-- One lemma for each part of a step
-----------------------------------------------------------------------------------------

/-- Dropping body entries keeps the records. -/
theorem Recorded.dropBodies {requestBodies responseBodies : BodyTable}
    (recorded : server.Recorded)
    (fewerRequests
      : requestBodies.ownersOf server.serverId ⊆ server.requestBodies.ownersOf server.serverId)
    (fewerResponses
      : responseBodies.ownersOf server.serverId ⊆ server.responseBodies.ownersOf server.serverId)
    : { server with
        requestBodies := requestBodies
        responseBodies := responseBodies : HttpServer }.Recorded := by
  refine {
    order := recorded.order
    arrived := recorded.arrived
    queue := recorded.queue
    pending := recorded.pending
    bodies := ?_
    acceptedOnce := recorded.acceptedOnce
    accepted := recorded.accepted
  }
  intro owner member
  rcases List.mem_append.mp member with request | response
  · exact recorded.bodies owner (List.mem_append_left _ (fewerRequests request))
  · exact recorded.bodies owner (List.mem_append_right _ (fewerResponses response))

/-- A request that no fulfiller waits for may leave its phase; when it ends it must have no
other entry.
-/
theorem Recorded.setPhase (recorded : server.Recorded) (phase : RequestPhase)
    (notPending : number ∉ Table.values server.pendingResponses) (moved : phase ≠ .waiting)
    (goesOn : number ∈ server.entries → phase ≠ .ended)
    : (server.setPhase number phase).Recorded := by
  refine {
    order := recorded.order
    arrived := fun other member =>
      (recorded.arrived other member).trans_eq (List.length_modify ..).symm
    queue := ?_
    pending := ?_
    bodies := ?_
    acceptedOnce := recorded.acceptedOnce
    accepted := ?_
  }
  · intro record member
    refine (recorded.queue record member).setPhase (fun same => goesOn ?_)
    exact mem_entries.mpr (.inl (same ▸ List.mem_map_of_mem member))
  · intro requestId other found
    have different : number ≠ other := by
      rintro rfl
      exact notPending (Table.mem_values_of_lookup found)
    simpa [getElem?_setPhase, different] using recorded.pending requestId other found
  · intro owner member
    refine (recorded.bodies owner member).setPhase (fun same => goesOn ?_)
    exact mem_entries.mpr (.inr (.inr ⟨owner, member, same.symm⟩))
  · intro other member
    obtain ⟨request, found, left⟩ := recorded.accepted other member
    by_cases same : number = other
    · exact ⟨{ request with phase := phase }, by simp [getElem?_setPhase, same, found], moved⟩
    · exact ⟨request, by simpa [getElem?_setPhase, same] using found, left⟩

/-- What is still in a table was there before. -/
theorem lookup_of_erase {table : Table UInt32 Nat} {key erased : UInt32} {value : Nat}
    (found : (table.erase erased).lookup key = some value)
    : table.lookup key = some value := by
  rcases eq_or_ne key erased with rfl | same
  · simp at found
  · rwa [AList.lookup_erase_ne same] at found

/-- Each waiting request has one fulfiller, under its own id. -/
theorem Recorded.erase_pending (recorded : server.Recorded)
    (found : server.pendingResponses.lookup requestId = some number)
    : number ∉ Table.values (server.pendingResponses.erase requestId) := by
  intro member
  obtain ⟨other, also⟩ := Table.mem_values_iff.mp member
  rcases eq_or_ne other requestId with rfl | same
  · simp at also
  · rw [AList.lookup_erase_ne same] at also
    have requests := (recorded.pending _ _ found).symm.trans (recorded.pending _ _ also)
    exact same (by simpa using requests.symm)

/-- A response that is decoded takes its fulfiller. -/
theorem takeFulfiller_of_bind {decoded : Except String Unit} {taken : Nat × HttpServer}
    (bound : decoded.bind (fun _ => server.takeFulfiller requestId) = .ok taken)
    : server.takeFulfiller requestId = .ok taken := by
  cases decoded with
  | error text => simp [Except.bind] at bound
  | ok _ => exact bound

/-- Taking a fulfiller and fulfilling it moves its request to the command. -/
theorem Recorded.fulfill {taken : HttpServer} (recorded : server.Recorded)
    (command : HttpServerResponseCommand)
    (took : server.takeFulfiller requestId = .ok (number, taken))
    : (taken.fulfill number command).Recorded
      ∧ server.requests[number]? = some { requestId := requestId, phase := .waiting }
      ∧ taken.fulfill number command
        = { server with
            pendingResponses := server.pendingResponses.erase requestId
            accepted := number :: server.accepted : HttpServer }.setPhase number
              (.commanded command) := by
  unfold takeFulfiller at took
  split_ifs at took
  split at took
  · simp at took
  next number found =>
    obtain ⟨rfl, rfl⟩ : number = _ ∧ _ = taken := by simpa using took
    have waiting := recorded.pending requestId number found
    have effect : ({ server with
          pendingResponses := server.pendingResponses.erase requestId
          : HttpServer }).fulfill number command
        = { server with
            pendingResponses := server.pendingResponses.erase requestId
            accepted := number :: server.accepted : HttpServer }.setPhase number
              (.commanded command) := by
      simp [HttpServer.fulfill, waiting]
    refine ⟨?_, waiting, effect⟩
    rw [effect]
    let erased : HttpServer :=
      { server with pendingResponses := server.pendingResponses.erase requestId }
    have before : erased.Recorded := {
      order := recorded.order
      arrived := recorded.arrived
      queue := recorded.queue
      pending := fun other same looked => recorded.pending other same (lookup_of_erase looked)
      bodies := recorded.bodies
      acceptedOnce := recorded.acceptedOnce
      accepted := recorded.accepted
    }
    have moved := before.setPhase (.commanded command) (recorded.erase_pending found) (by simp)
      (by simp)
    have unaccepted : number ∉ server.accepted := by
      intro member
      obtain ⟨request, also, left⟩ := recorded.accepted number member
      obtain rfl := Option.some.inj (waiting.symm.trans also)
      exact left rfl
    refine ⟨moved.order, moved.arrived, moved.queue, moved.pending, moved.bodies,
      List.nodup_cons.mpr ⟨unaccepted, recorded.acceptedOnce⟩, ?_⟩
    intro other member
    rcases List.mem_cons.mp member with rfl | old
    · exact ⟨{ requestId := requestId, phase := .commanded command },
        by simp [getElem?_setPhase, waiting], by simp⟩
    · exact moved.accepted other old

/-- The completions that are owed change with the phase. -/
theorem Owing.setPhase {request : HttpRequest} (owing : server.Owing)
    (found : server.requests[number]? = some request) (phase : RequestPhase)
    (same : phase.completion? = request.phase.completion?)
    : (server.setPhase number phase).Owing := by
  obtain ⟨rest, before, after⟩ := server.toComplete_setPhase found phase
  have owed : (server.setPhase number phase).toComplete.Perm server.toComplete :=
    after.trans (same ▸ before.symm)
  exact ⟨owing.ledger.move (owed.append_right _),
    fun completion member => owing.pumped completion (owed.mem_iff.mp member)⟩

/-- A continuation that answers its completion owes it no more. -/
theorem Owing.complete {request : HttpRequest} {completion : Nat} (owing : server.Owing)
    (found : server.requests[number]? = some request)
    (owes : request.phase.completion? = some completion) (answer : Except String UInt32)
    : ((server.setPhase number .responding).complete completion answer).Owing := by
  obtain ⟨rest, before, after⟩ := server.toComplete_setPhase found .responding
  rw [owes] at before
  refine ⟨owing.ledger.move ?_, ?_⟩
  · refine ((after.append_right _).trans ?_).trans (before.append_right _).symm
    exact List.perm_middle
  · intro other member
    exact owing.pumped other (before.mem_iff.mpr (List.mem_cons_of_mem _ (after.mem_iff.mp member)))

/-- Without pumping nothing is owed. -/
theorem Owing.none_of_idle (owing : server.Owing) (idle : server.pumping = none)
    : server.toComplete = [] := by
  rw [List.eq_nil_iff_forall_not_mem]
  intro completion member
  simpa [idle] using owing.pumped completion member

/-- A new body adds one owner. -/
theorem mem_ownersOf_add {table after : BodyTable} {owner found : BodyOwner} {id serverId : UInt32}
    (added : table.add owner = some (id, after)) (member : found ∈ after.ownersOf serverId)
    : found = owner ∨ found ∈ table.ownersOf serverId := by
  obtain ⟨⟨id, next⟩, _, pair⟩ := Option.map_eq_some_iff.mp added
  obtain ⟨rfl, rfl⟩ := Prod.mk.inj pair
  obtain ⟨stored, own⟩ := List.mem_filter.mp member
  rcases Table.mem_values_insert stored with rfl | old
  · exact .inl rfl
  · exact .inr (List.mem_filter.mpr ⟨old, own⟩)

/-- An arrival is recorded under the next number, with or without its fulfiller. -/
theorem Recorded.request {head : HttpRequestHead} {after : HttpServer}
    (recorded : server.Recorded) (ran : server.request head = some after)
    : after.Recorded := by
  obtain ⟨⟨handle, table⟩, added, rfl⟩ := Option.map_eq_some_iff.mp ran
  have old {number : Nat} (arrival : HttpRequest) {request : HttpRequest}
      (found : server.requests[number]? = some request)
      : (server.requests ++ [arrival])[number]? = some request := by
    rw [List.getElem?_append_left (List.getElem?_eq_some_iff.mp found).1, found]
  refine {
    order := ?_
    arrived := ?_
    queue := ?_
    pending := ?_
    bodies := ?_
    acceptedOnce := recorded.acceptedOnce
    accepted := fun number member =>
      (recorded.accepted number member).imp (fun request left => ⟨old _ left.1, left.2⟩)
  }
  · simp only [queued, List.map_append, List.map_cons, List.map_nil, ← List.append_assoc]
    refine List.pairwise_append.mpr ⟨recorded.order, List.pairwise_singleton _ _, ?_⟩
    intro number member last isLast
    obtain rfl := List.mem_singleton.mp isLast
    exact recorded.arrived number member
  · intro number member
    simp only [queued, List.map_append, List.map_cons, List.map_nil, ← List.append_assoc] at member
    rw [List.length_append, List.length_singleton]
    rcases List.mem_append.mp member with member | isLast
    · exact Nat.lt_succ_of_lt (recorded.arrived number member)
    · exact Nat.lt_succ_of_le (List.mem_singleton.mp isLast).le
  · intro record member
    rcases List.mem_append.mp member with member | isLast
    · exact (recorded.queue record member).arrive rfl
    · obtain rfl := List.mem_singleton.mp isLast
      refine ⟨_, List.getElem?_concat_length, rfl, ?_⟩
      split_ifs <;> simp
  · intro requestId number found
    simp only [emplace] at found
    split_ifs at found with present
    · exact old _ (recorded.pending requestId number found)
    · rcases eq_or_ne requestId server.nextRequestId with rfl | same
      · obtain rfl : server.requests.length = number := by simpa using found
        simp [present]
      · rw [AList.lookup_insert_ne same] at found
        exact old _ (recorded.pending requestId number found)
  · intro owner member
    rcases List.mem_append.mp member with request | response
    · rcases mem_ownersOf_add added request with rfl | before
      · refine ⟨_, List.getElem?_concat_length, rfl, ?_⟩
        split_ifs <;> simp
      · exact (recorded.bodies owner (List.mem_append_left _ before)).arrive rfl
    · exact (recorded.bodies owner (List.mem_append_right _ response)).arrive rfl

/-- A request that arrives is owed an answer. -/
theorem Owing.request {head : HttpRequestHead} {after : HttpServer} (owing : server.Owing)
    (ran : server.request head = some after)
    : after.Owing := by
  obtain ⟨⟨handle, table⟩, _, rfl⟩ := Option.map_eq_some_iff.mp ran
  have owed (phase : RequestPhase) (none : phase.completion? = none) (requestId : UInt32)
      : { server with
          requests := server.requests ++ [{ requestId := requestId, phase := phase }]
          : HttpServer }.toComplete = server.toComplete := by
    simp [toComplete, none]
  have fresh : (if server.nextRequestId ∈ server.pendingResponses then RequestPhase.responding
      else .waiting).completion? = none := by
    split_ifs <;> rfl
  have same := owed _ fresh server.nextRequestId
  exact ⟨same ▸ owing.ledger, same ▸ owing.pumped⟩

/-- Erasing a body adds no owner. -/
theorem ownersOf_erase_subset {table : BodyTable} {id serverId : UInt32}
    : (table.erase id).ownersOf serverId ⊆ table.ownersOf serverId := by
  intro owner member
  obtain ⟨stored, own⟩ := List.mem_filter.mp member
  exact List.mem_filter.mpr ⟨Table.mem_values_erase stored, own⟩

/-- Releasing the bodies of a request leaves those of the others. -/
theorem ownersOf_releaseForRequest {table : BodyTable} {owner : BodyOwner} {serverId : UInt32}
    (member : owner ∈ (table.releaseForRequest serverId requestId).ownersOf serverId)
    : owner ∈ table.ownersOf serverId ∧ owner.requestId ≠ requestId := by
  obtain ⟨stored, own⟩ := List.mem_filter.mp member
  obtain ⟨stored, kept⟩ := Table.mem_values_eraseWhere.mp stored
  refine ⟨List.mem_filter.mpr ⟨stored, own⟩, ?_⟩
  simp only [decide_eq_true_eq] at own
  simpa [own] using kept

/-- Cleaning up keeps the records. -/
theorem Recorded.cleanup (recorded : server.Recorded) (requestId : UInt32)
    : (server.cleanup requestId).Recorded :=
  recorded.dropBodies (fun _ member => (ownersOf_releaseForRequest member).1)
    (fun _ member => (ownersOf_releaseForRequest member).1)

/-- The clean-up leaves a request without a queue or pending entry no entry at all. -/
theorem Recorded.not_mem_entries_cleanup {request : HttpRequest} (recorded : server.Recorded)
    (found : server.requests[number]? = some request) (notQueued : number ∉ server.queued)
    (notPending : number ∉ Table.values server.pendingResponses)
    : number ∉ (server.cleanup request.requestId).entries := by
  intro entry
  rcases mem_entries.mp entry with queued | pending | ⟨owner, member, same⟩
  · exact notQueued queued
  · exact notPending pending
  · have kept
        : owner ∈ server.requestBodies.ownersOf server.serverId
              ++ server.responseBodies.ownersOf server.serverId
            ∧ owner.requestId ≠ request.requestId := by
      rcases List.mem_append.mp member with ofRequest | ofResponse
      · exact (ownersOf_releaseForRequest ofRequest).imp_left (List.mem_append_left _)
      · exact (ownersOf_releaseForRequest ofResponse).imp_left (List.mem_append_right _)
    obtain ⟨other, also, id, _⟩ := recorded.bodies owner kept.1
    obtain rfl : request = other := Option.some.inj (found.symm.trans (same ▸ also))
    exact kept.2 id.symm

/-- The clean-up removes the body entries of the destroyed promise's request; the condition
says that it has no others.
-/
theorem Consistent.destroyPromise {after : HttpServer} (consistent : server.Consistent)
    (leaves : server.leavesNothing number = true)
    (ran : server.destroyPromise number = some after)
    : after.Consistent := by
  obtain ⟨recorded, owing⟩ := consistent
  simp only [HttpServer.leavesNothing, Bool.and_eq_true, decide_eq_true_eq] at leaves
  obtain ⟨⟨notQueued, notPending⟩, owesNothing⟩ := leaves
  unfold HttpServer.destroyPromise at ran
  split at ran
  · simp at ran
  next request found =>
    split_ifs at ran with ended
    obtain rfl := Option.some.inj ran
    refine ⟨(recorded.cleanup _).setPhase .ended notPending (by simp) ?_, ?_⟩
    · intro entry
      exact absurd entry (recorded.not_mem_entries_cleanup found notQueued notPending)
    · have cleaned : (server.cleanup request.requestId).Owing := ⟨owing.ledger, owing.pumped⟩
      rw [found] at owesNothing
      exact cleaned.setPhase found .ended (Option.isNone_iff_eq_none.mp owesNothing).symm

/-- A body may be added for a live request. -/
theorem Recorded.addResponseBody {table : BodyTable} {owner : BodyOwner} {id : UInt32}
    (recorded : server.Recorded) (added : server.responseBodies.add owner = some (id, table))
    (live : server.Live owner.request owner.requestId)
    : { server with responseBodies := table : HttpServer }.Recorded := by
  refine {
    order := recorded.order
    arrived := recorded.arrived
    queue := recorded.queue
    pending := recorded.pending
    bodies := ?_
    acceptedOnce := recorded.acceptedOnce
    accepted := recorded.accepted
  }
  intro found member
  rcases List.mem_append.mp member with request | response
  · exact recorded.bodies found (List.mem_append_left _ request)
  · rcases mem_ownersOf_add added response with rfl | before
    · exact live
    · exact recorded.bodies found (List.mem_append_right _ before)

/-- A request that moved on waits no longer. -/
theorem notPending_of_phase {request : HttpRequest} (recorded : server.Recorded)
    (found : server.requests[number]? = some request) (moved : request.phase ≠ .waiting)
    : number ∉ Table.values server.pendingResponses := by
  intro pending
  obtain ⟨requestId, looked⟩ := Table.mem_values_iff.mp pending
  obtain rfl := Option.some.inj (found.symm.trans (recorded.pending requestId number looked))
  exact moved rfl

/-- A continuation answers the completion it was given, once. -/
theorem Consistent.runContinuation {failure : Option String} {webSocketId : UInt32}
    {after : HttpServer} (consistent : server.Consistent)
    (ran : server.runContinuation number failure webSocketId = some after)
    : after.Consistent := by
  obtain ⟨recorded, owing⟩ := consistent
  unfold HttpServer.runContinuation at ran
  split at ran
  · simp at ran
  next request found =>
    have moved (command : HttpServerResponseCommand) (phase : request.phase = .commanded command)
        : (server.setPhase number .responding).Recorded :=
      recorded.setPhase .responding
        (notPending_of_phase recorded found (by simp [phase])) (by simp) (by simp)
    have answers (completion : Nat) (answer : Except String UInt32)
        (command : HttpServerResponseCommand) (phase : request.phase = .commanded command)
        (given : command.completion? = some completion)
        : ((server.setPhase number .responding).complete completion answer).Consistent := by
      have kept := moved command phase
      refine ⟨⟨kept.order, kept.arrived, kept.queue, kept.pending, kept.bodies,
        kept.acceptedOnce, kept.accepted⟩, ?_⟩
      exact owing.complete found (by simpa [phase, RequestPhase.completion?] using given) answer
    simp only at ran
    split at ran
    next phase =>
      obtain rfl := Option.some.inj ran
      refine ⟨moved _ phase, owing.setPhase found .responding ?_⟩
      simp [phase, RequestPhase.completion?, HttpServerResponseCommand.completion?]
    next completion phase =>
      obtain rfl := Option.some.inj ran
      exact answers completion _ _ phase rfl
    next completion phase =>
      obtain ⟨⟨id, table⟩, added, rfl⟩ := Option.map_eq_some_iff.mp ran
      have answered := answers completion (.ok id) _ phase rfl
      have live : ((server.setPhase number .responding).complete completion (.ok id)).Live number
          request.requestId :=
        Live.setPhase ⟨request, found, rfl, by simp [phase]⟩ (by simp)
      have bodied := answered.recorded.addResponseBody added live
      exact ⟨bodied, answered.owing.ledger, answered.owing.pumped⟩
    next completion text phase =>
      obtain rfl := Option.some.inj ran
      exact answers completion _ _ phase rfl
    next completion text phase =>
      obtain rfl := Option.some.inj ran
      exact answers completion _ _ phase rfl
    all_goals simp at ran

/-- The pumping loop leaves when its completion is done, so nothing is owed then. -/
theorem Consistent.stopPumping {completion : Nat} (consistent : server.Consistent)
    (pumping : server.pumping = some completion) (done : completion ∈ server.answered)
    : { server with pumping := none : HttpServer }.Consistent := by
  obtain ⟨recorded, owing⟩ := consistent
  refine ⟨⟨recorded.order, recorded.arrived, recorded.queue, recorded.pending, recorded.bodies,
    recorded.acceptedOnce, recorded.accepted⟩, owing.ledger, ?_⟩
  intro owed member
  have distinct := (List.nodup_append.mp owing.ledger.nodup).2.2
  obtain rfl : completion = owed := Option.some.inj (pumping.symm.trans (owing.pumped owed member))
  exact absurd rfl (distinct completion member completion done)

-----------------------------------------------------------------------------------------
-- The run loop's operations
-----------------------------------------------------------------------------------------

/-- Polling keeps the server consistent. -/
theorem Consistent.poll (consistent : server.Consistent)
    : server.httpServerPollRequest.2.Consistent := by
  unfold httpServerPollRequest
  split_ifs with released
  · exact consistent
  · obtain ⟨recorded, owing⟩ := consistent
    split
    · exact ⟨recorded, owing⟩
    next record rest queue =>
      have same : (server.polled ++ [record.request]) ++ rest.map (·.request)
          = server.polled ++ server.queued := by
        simp [queued, queue]
      refine ⟨{
        order := same ▸ recorded.order
        arrived := fun number member => recorded.arrived number (same ▸ member)
        queue := fun other member => recorded.queue other (by simp [queue, member])
        pending := recorded.pending
        bodies := recorded.bodies
        acceptedOnce := recorded.acceptedOnce
        accepted := recorded.accepted
      }, owing.ledger, owing.pumped⟩

/-- Responding keeps it consistent, whatever is decoded. -/
theorem Consistent.respond (consistent : server.Consistent) (decoded : Except String Unit)
    (requestId : UInt32)
    : (server.httpServerRespond decoded requestId).2.Consistent := by
  obtain ⟨recorded, owing⟩ := consistent
  unfold httpServerRespond
  split
  · exact ⟨recorded, owing⟩
  next number taken took =>
    have took := takeFulfiller_of_bind took
    obtain ⟨kept, waiting, effect⟩ := recorded.fulfill .http took
    refine ⟨kept, ?_⟩
    rw [effect]
    have before : { server with
        pendingResponses := server.pendingResponses.erase requestId
        accepted := number :: server.accepted : HttpServer }.Owing :=
      ⟨owing.ledger, owing.pumped⟩
    exact before.setPhase waiting _ rfl

/-- A response with a completion is made when nothing is owed, and owes its own then. -/
theorem Consistent.respondWith {command : Nat → HttpServerResponseCommand}
    (consistent : server.Consistent) (idle : server.pumping = none)
    (carries : ∀ completion, (command completion).completion? = some completion)
    (decoded : Except String Unit) (requestId : UInt32)
    : (server.respondWith command decoded requestId).Consistent := by
  obtain ⟨recorded, owing⟩ := consistent
  have nothing := owing.none_of_idle idle
  let issued : HttpServer := { server with completions := server.completions + 1 }
  have issuedRecorded : issued.Recorded :=
    ⟨recorded.order, recorded.arrived, recorded.queue, recorded.pending, recorded.bodies,
      recorded.acceptedOnce, recorded.accepted⟩
  have ledger : Ledger (server.completions + 1) (server.completions :: server.answered) := by
    simpa [nothing] using owing.ledger.issue
  unfold HttpServer.respondWith
  simp only
  split
  · refine ⟨⟨recorded.order, recorded.arrived, recorded.queue, recorded.pending, recorded.bodies,
      recorded.acceptedOnce, recorded.accepted⟩, ?_, owing.pumped⟩
    change Ledger _ (server.toComplete ++ server.completions :: server.answered)
    rw [nothing]
    exact ledger
  next number taken took =>
    have took := takeFulfiller_of_bind took
    obtain ⟨kept, waiting, effect⟩ := issuedRecorded.fulfill (command server.completions) took
    let accepted : HttpServer :=
      { issued with
        pendingResponses := server.pendingResponses.erase requestId
        accepted := number :: server.accepted }
    obtain ⟨rest, before, after⟩ :=
      accepted.toComplete_setPhase waiting (.commanded (command server.completions))
    have empty : rest = [] := by
      have none : accepted.toComplete = [] := nothing
      simpa [none, RequestPhase.completion?] using before
    have owes : (taken.fulfill number (command server.completions)).toComplete
        = [server.completions] := by
      rw [effect]
      simpa [RequestPhase.completion?, carries, empty] using after
    have sameAnswers : (taken.fulfill number (command server.completions)).answered
        = server.answered := by
      rw [effect]
      rfl
    have sameCount : (taken.fulfill number (command server.completions)).completions
        = server.completions + 1 := by
      rw [effect]
      rfl
    refine ⟨⟨kept.order, kept.arrived, kept.queue, kept.pending, kept.bodies,
      kept.acceptedOnce, kept.accepted⟩, ?_, ?_⟩
    · change Ledger (taken.fulfill number (command server.completions)).completions
        ((taken.fulfill number (command server.completions)).toComplete
          ++ (taken.fulfill number (command server.completions)).answered)
      rw [owes, sameAnswers, sameCount]
      exact ledger
    · intro completion member
      have isNew : completion ∈ (taken.fulfill number (command server.completions)).toComplete :=
        member
      rw [owes, List.mem_singleton] at isNew
      rw [isNew]

/-- Releasing the server ends every request and drops every entry. -/
theorem Consistent.release (consistent : server.Consistent) (idle : server.pumping = none)
    : server.httpServerRelease.2.Consistent := by
  unfold httpServerRelease
  split_ifs with released
  · exact consistent
  · obtain ⟨recorded, owing⟩ := consistent
    have gone (table : BodyTable)
        : (table.releaseForServer server.serverId).ownersOf server.serverId = [] := by
      rw [List.eq_nil_iff_forall_not_mem]
      intro owner member
      obtain ⟨stored, own⟩ := List.mem_filter.mp member
      have kept := (Table.mem_values_eraseWhere.mp stored).2
      simp only [decide_eq_true_eq] at own
      simp [own] at kept
    have nothing := owing.none_of_idle idle
    have ended : (server.requests.map
          (fun request => { request with phase := RequestPhase.ended })).filterMap
        (fun request => request.phase.completion?) = [] := by
      simp [RequestPhase.completion?]
    refine ⟨{
      order := by simpa [queued] using (List.pairwise_append.mp recorded.order).1
      arrived := ?_
      queue := by simp
      pending := by simp
      bodies := by simp [gone]
      acceptedOnce := recorded.acceptedOnce
      accepted := ?_
    }, ?_, ?_⟩
    · intro number member
      simp only [queued, List.map_nil, List.append_nil] at member
      simpa using recorded.arrived number (List.mem_append_left _ member)
    · intro number member
      obtain ⟨request, found, _⟩ := recorded.accepted number member
      exact ⟨{ request with phase := .ended }, by simp [found], by simp⟩
    · have ledger := owing.ledger
      rw [nothing] at ledger
      simpa only [toComplete, ended, answered] using ledger
    · simp [toComplete, ended]

/-- Every step of the event loop and of the run loop. -/
theorem Consistent.step {after : HttpServer} {label : HttpServerStep}
    (consistent : server.Consistent) (leaves : label.leavesNothing server = true)
    (ran : label.run server = some after)
    : after.Consistent := by
  have operation (operated : (if server.pumping.isNone then label.operation server else none)
        = some after)
      : server.pumping = none ∧ label.operation server = some after := by
    simpa only [Option.ite_none_right_eq_some, Option.isNone_iff_eq_none] using operated
  cases label with
  | request head =>
      simp only [HttpServerStep.run, Option.ite_none_left_eq_some] at ran
      exact ⟨consistent.recorded.request ran.2, consistent.owing.request ran.2⟩
  | destroyPromise number => exact consistent.destroyPromise leaves ran
  | runContinuation number failure webSocketId => exact consistent.runContinuation ran
  | stopPumping =>
      simp only [HttpServerStep.run, Option.ite_none_right_eq_some, Option.some.injEq] at ran
      obtain ⟨done, rfl⟩ := ran
      obtain ⟨completion, pumping, member⟩ := (Option.any_eq_true _ _).mp done
      exact consistent.stopPumping pumping (of_decide_eq_true member)
  | otherServers requestBodies responseBodies =>
      simp only [HttpServerStep.run, Option.ite_none_right_eq_some, Option.some.injEq] at ran
      obtain ⟨⟨sameRequests, sameResponses⟩, rfl⟩ := ran
      exact ⟨consistent.recorded.dropBodies (fun _ member => sameRequests ▸ member)
          (fun _ member => sameResponses ▸ member),
        consistent.owing.ledger, consistent.owing.pumped⟩
  | poll =>
      obtain rfl := Option.some.inj (operation ran).2
      exact consistent.poll
  | respond decoded requestId =>
      obtain rfl := Option.some.inj (operation ran).2
      exact consistent.respond decoded requestId
  | respondWebSocket decoded requestId =>
      obtain ⟨idle, operated⟩ := operation ran
      obtain rfl := Option.some.inj operated
      exact consistent.respondWith idle (fun _ => rfl) decoded requestId
  | respondStartStreaming decoded requestId =>
      obtain ⟨idle, operated⟩ := operation ran
      obtain rfl := Option.some.inj operated
      exact consistent.respondWith idle (fun _ => rfl) decoded requestId
  | releaseRequestBody id =>
      obtain rfl := Option.some.inj (operation ran).2
      refine ⟨consistent.recorded.dropBodies ?_ (List.Subset.refl _), consistent.owing.ledger,
        consistent.owing.pumped⟩
      exact ownersOf_erase_subset
  | releaseResponseBody id =>
      obtain rfl := Option.some.inj (operation ran).2
      refine ⟨consistent.recorded.dropBodies (List.Subset.refl _) ?_, consistent.owing.ledger,
        consistent.owing.pumped⟩
      exact ownersOf_erase_subset
  | release =>
      obtain ⟨idle, operated⟩ := operation ran
      obtain rfl := Option.some.inj operated
      exact consistent.release idle

/-- A destroyed promise that leaves something behind breaks the claim at once. -/
theorem Consistent.leavesNothing_of_answeredOnce {after : HttpServer}
    (consistent : server.Consistent) (ran : server.destroyPromise number = some after)
    (answered : after.AnsweredOnce)
    : server.leavesNothing number = true := by
  unfold HttpServer.destroyPromise at ran
  split at ran
  · simp at ran
  next request found =>
    split_ifs at ran with ended
    obtain rfl := Option.some.inj ran
    have isEnded : number
        ∈ ((server.cleanup request.requestId).setPhase number .ended).endedRequests := by
      refine mem_endedRequests.mpr ⟨{ request with phase := .ended }, ?_, rfl⟩
      simp [getElem?_setPhase, cleanup, found]
    have noEntry := answered.clean number isEnded
    simp only [mem_entries, not_or] at noEntry
    have owesNothing : request.phase.completion? = none := by
      cases owes : request.phase.completion? with
      | none => rfl
      | some completion =>
          obtain ⟨rest, before, later⟩ :=
            (server.cleanup request.requestId).toComplete_setPhase found .ended
          rw [owes] at before
          have entered := (before.append_right server.answered).symm
          have ledger := consistent.owing.ledger.move entered
          have issued : completion < server.completions := ledger.mem_iff.mp (by simp)
          have fresh := (List.nodup_cons.mp ledger.nodup).1
          rcases answered.completes completion issued with done | owed
          · exact absurd (List.mem_append_right _ done) fresh
          · exact absurd (List.mem_append_left _ (later.mem_iff.mp owed)) fresh
    simp only [HttpServer.leavesNothing, Bool.and_eq_true, decide_eq_true_eq, found,
      Option.isNone_iff_eq_none]
    exact ⟨⟨noEntry.1, noEntry.2.1⟩, owesNothing⟩

end HttpServer

-----------------------------------------------------------------------------------------
-- Runs
-----------------------------------------------------------------------------------------

/-- In every run whose destroyed promises leave nothing behind, every request is answered
once; and in such a run a further destroyed promise keeps it so exactly when it leaves
nothing behind.
-/
theorem http_requests_answered_once {serverId : UInt32} {server : HttpServer}
    (reached
      : ((httpServerSystem serverId).guard
          (fun before label => label.leavesNothing before = true)).Reachable server)
    : server.AnsweredOnce
      ∧ ∀ number after, server.destroyPromise number = some after →
          (after.AnsweredOnce ↔ server.leavesNothing number = true) := by
  have consistent : server.Consistent := by
    refine reached.invariant HttpServer.Consistent ?_ ?_
    · intro first initial
      obtain rfl : first = { serverId := serverId } := initial
      have none : ({} : BodyTable).ownersOf serverId = [] := rfl
      exact ⟨⟨by simp [HttpServer.queued], by simp [HttpServer.queued], by simp, by simp,
        by simp [none], by simp, by simp⟩, .start, by simp [HttpServer.toComplete]⟩
    · intro before label after step holds
      exact holds.step step.1 step.2
  refine ⟨consistent.answeredOnce, fun number after ran => ⟨?_, ?_⟩⟩
  · exact consistent.leavesNothing_of_answeredOnce ran
  · exact fun leaves => (consistent.destroyPromise leaves ran).answeredOnce

def someRequest : HttpRequestHead where
  methodTag := 0
  webSocketRequested := false
  path := "/"
  headers := []

/-- Two requests are polled and answered, one by a web socket, before their clients go. -/
theorem http_requests_answered_once_two
    : ∃ server : HttpServer, server.polled = [0, 1] ∧ server.accepted = [0, 1]
        ∧ server.endedRequests = [0, 1] ∧ server.AnsweredOnce := by
  let steps : List HttpServerStep :=
    [.request someRequest, .request someRequest, .poll, .poll, .respondWebSocket (.ok ()) 2,
      .runContinuation 1 none 1, .stopPumping, .respond (.ok ()) 1, .runContinuation 0 none 0,
      .destroyPromise 0, .destroyPromise 1]
  let checks (server : HttpServer) : Bool :=
    decide (server.polled = [0, 1] ∧ server.accepted = [0, 1] ∧ server.endedRequests = [0, 1])
  have replayed : ∃ server,
      ((httpServerSystem 1).guard
        (fun before label => label.leavesNothing before = true)).Reachable server
      ∧ checks server = true :=
    Transition.exists_guarded_of_replay _ steps checks (by decide)
  obtain ⟨server, reached, checked⟩ := replayed
  obtain ⟨polled, accepted, ended⟩ := of_decide_eq_true checked
  exact ⟨server, polled, accepted, ended, (http_requests_answered_once reached).1⟩

/-- Three runs that break the condition: the client goes away before its request is polled,
before the response to it, and between the response and its continuation.
-/
def disconnectedRuns : List (List HttpServerStep) :=
  [
    [.request someRequest, .destroyPromise 0],
    [.request someRequest, .poll, .destroyPromise 0, .respondStartStreaming (.ok ()) 1],
    [.request someRequest, .poll, .respondWebSocket (.ok ()) 1, .destroyPromise 0]
  ]

/-- The first run leaves entries of an ended request, the others a completion that the run
loop pumps for and no continuation will complete.
-/
theorem disconnected_requests_remain
    : disconnectedRuns.Forall fun steps => ∃ server,
        Transition.replay HttpServerStep.run { serverId := 1 } steps = some server
        ∧ (httpServerSystem 1).Reachable server ∧ ¬ server.AnsweredOnce := by
  refine List.forall_iff_forall_mem.mpr fun steps member => ?_
  have broken : ∀ steps ∈ disconnectedRuns,
      (Transition.replay HttpServerStep.run { serverId := 1 } steps).any
        (fun server => !decide server.AnsweredOnce) = true := by
    decide
  obtain ⟨server, replayed, remains⟩ := (Option.any_eq_true _ _).mp (broken steps member)
  refine ⟨server, replayed, ?_, by simpa using remains⟩
  exact Transition.reachable_of_replay (.start rfl) replayed

end Capnp.KjAsync
