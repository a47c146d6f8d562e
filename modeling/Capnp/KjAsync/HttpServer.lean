import Capnp.Rpc.Targets

/-! One HTTP server of an async runtime: the requests its service has received, the queue
they are polled from, the fulfillers their responses go through, and the body streams.
Requests are numbered in the order they arrive; the code only has their `requestId`, a
counter of 32 bits.
-/

namespace Capnp.KjAsync

open Rpc (emplace allocateId)

/-- `request` is the number of the arrival that the ids were given for. -/
structure BodyOwner where
  serverId : UInt32
  requestId : UInt32
  request : Nat
deriving DecidableEq

/-- The runtime's table of request bodies, or the one of response bodies. -/
structure BodyTable where
  bodies : Table UInt32 BodyOwner := ∅
  nextId : UInt32 := 1

def BodyTable.add (owner : BodyOwner) (table : BodyTable) : Option (UInt32 × BodyTable) :=
  (allocateId table.bodies (table.bodies.keys.length + 1) table.nextId).map
    (fun (id, next) => (id, { bodies := table.bodies.insert id owner, nextId := next }))

def BodyTable.erase (id : UInt32) (table : BodyTable) : BodyTable :=
  { table with bodies := table.bodies.erase id }

def BodyTable.releaseForRequest (serverId requestId : UInt32) (table : BodyTable) : BodyTable :=
  { table with
    bodies :=
      Table.eraseWhere
        (fun owner => decide (owner.serverId = serverId ∧ owner.requestId = requestId))
        table.bodies }

def BodyTable.releaseForServer (serverId : UInt32) (table : BodyTable) : BodyTable :=
  { table with
    bodies := Table.eraseWhere (fun owner => decide (owner.serverId = serverId)) table.bodies }

/-- A server's entries. -/
def BodyTable.ownersOf (serverId : UInt32) (table : BodyTable) : List BodyOwner :=
  (Table.values table.bodies).filter (fun owner => owner.serverId = serverId)

-----------------------------------------------------------------------------------------
-- Requests
-----------------------------------------------------------------------------------------

/-- What arrives of a request before its body. -/
structure HttpRequestHead where
  methodTag : UInt32
  webSocketRequested : Bool
  path : String
  headers : List (String × String)

/-- A request as it is recorded for Lean. -/
structure HttpServerRequestRecord where
  request : Nat
  requestId : UInt32
  head : HttpRequestHead
  bodyHandle : UInt32

/-- What a response hands to the continuation of its request; a web socket or a streaming
response brings the completion that the continuation answers.
-/
inductive HttpServerResponseCommand where
  | http
  | webSocket (completion : Nat)
  | httpStreaming (completion : Nat)
deriving DecidableEq

def HttpServerResponseCommand.completion? : HttpServerResponseCommand → Option Nat
  | .http => none
  | .webSocket completion | .httpStreaming completion => some completion

/-- The promise that `request` returned: it waits for the fulfiller, has a command for its
continuation, is left with what the continuation (or a dropped fulfiller) made of it, or is
destroyed.
-/
inductive RequestPhase where
  | waiting
  | commanded (command : HttpServerResponseCommand)
  | responding
  | ended
deriving DecidableEq

def RequestPhase.completion? : RequestPhase → Option Nat
  | .commanded command => command.completion?
  | .waiting | .responding | .ended => none

/-- A request with how far it got. -/
structure HttpRequest where
  requestId : UInt32
  phase : RequestPhase

/-- `requests` lists the arrivals, `polled` the polled ones and `accepted` those that a
response was accepted for, the latest first. `pumping` is the completion that the run loop
pumps the event loop for; completions are numbered, and `completed` logs their answers.
-/
structure HttpServer where
  serverId : UInt32
  released : Bool := false
  nextRequestId : UInt32 := 1
  requestQueue : List HttpServerRequestRecord := []
  pendingResponses : Table UInt32 Nat := ∅
  requestBodies : BodyTable := {}
  responseBodies : BodyTable := {}
  requests : List HttpRequest := []
  polled : List Nat := []
  accepted : List Nat := []
  pumping : Option Nat := none
  completions : Nat := 0
  completed : List (Nat × Except String UInt32) := []

namespace HttpServer

def setPhase (number : Nat) (phase : RequestPhase) (server : HttpServer) : HttpServer :=
  { server with
    requests := server.requests.modify number (fun request => { request with phase := phase }) }

def complete (completion : Nat) (answer : Except String UInt32) (server : HttpServer)
    : HttpServer :=
  { server with completed := (completion, answer) :: server.completed }

/-- `RuntimeHttpService::request`. An id already pending keeps its fulfiller; the new one is
dropped, which rejects the new promise.
-/
def request (head : HttpRequestHead) (server : HttpServer) : Option HttpServer :=
  let number := server.requests.length
  let requestId := server.nextRequestId
  (server.requestBodies.add
      { serverId := server.serverId, requestId := requestId, request := number }).map
    (fun (bodyHandle, requestBodies) =>
      { server with
        nextRequestId := requestId + 1
        requestQueue :=
          server.requestQueue
            ++ [{ request := number, requestId := requestId, head := head,
                  bodyHandle := bodyHandle }]
        pendingResponses := emplace server.pendingResponses requestId number
        requestBodies := requestBodies
        requests :=
          server.requests
            ++ [{ requestId := requestId,
                  phase :=
                    if requestId ∈ server.pendingResponses then .responding else .waiting }] })

/-- What is deferred to the end of the promise. -/
def cleanup (requestId : UInt32) (server : HttpServer) : HttpServer :=
  { server with
    requestBodies := server.requestBodies.releaseForRequest server.serverId requestId
    responseBodies := server.responseBodies.releaseForRequest server.serverId requestId }

/-- KJ destroys the promise, when the client goes away or when it has been consumed. -/
def destroyPromise (number : Nat) (server : HttpServer) : Option HttpServer :=
  match server.requests[number]? with
  | none => none
  | some request =>
      if request.phase = .ended then none
      else some ((server.cleanup request.requestId).setPhase number .ended)

/-- The continuation of a request that has a command. `failure` is the exception text of
accepting or sending, and `webSocketId` comes from the table of web sockets.
-/
def runContinuation (number : Nat) (failure : Option String) (webSocketId : UInt32)
    (server : HttpServer) : Option HttpServer :=
  match server.requests[number]? with
  | none => none
  | some request =>
      let after := server.setPhase number .responding
      match request.phase, failure with
      | .commanded .http, _ => some after
      | .commanded (.webSocket completion), none =>
          some (after.complete completion (.ok webSocketId))
      | .commanded (.httpStreaming completion), none =>
          (server.responseBodies.add
              { serverId := server.serverId, requestId := request.requestId,
                request := number }).map
            (fun (responseBodyId, responseBodies) =>
              { after with responseBodies := responseBodies }.complete completion
                (.ok responseBodyId))
      | .commanded (.webSocket completion), some text
      | .commanded (.httpStreaming completion), some text =>
          some (after.complete completion (.error text))
      | .waiting, _ | .responding, _ | .ended, _ => none

def unknownServer (server : HttpServer) : String :=
  "unknown KJ HTTP server id: " ++ toString server.serverId.toNat

def httpServerPollRequest (server : HttpServer)
    : Except String (Option HttpServerRequestRecord) × HttpServer :=
  if server.released then (.error server.unknownServer, server)
  else
    match server.requestQueue with
    | [] => (.ok none, server)
    | record :: rest =>
        (.ok (some record),
          { server with requestQueue := rest, polled := server.polled ++ [record.request] })

/-- The look-up that the three responses share. -/
def takeFulfiller (requestId : UInt32) (server : HttpServer) : Except String (Nat × HttpServer) :=
  if server.released then .error server.unknownServer
  else
    match server.pendingResponses.lookup requestId with
    | none => .error ("unknown KJ HTTP server request id: " ++ toString requestId.toNat)
    | some number =>
        .ok (number,
          { server with pendingResponses := server.pendingResponses.erase requestId })

/-- A fulfiller whose promise is gone does nothing. -/
def fulfill (number : Nat) (command : HttpServerResponseCommand) (server : HttpServer)
    : HttpServer :=
  let accepted := { server with accepted := number :: server.accepted }
  if (server.requests[number]?).any (fun request => request.phase = .waiting) then
    accepted.setPhase number (.commanded command)
  else accepted

/-- `decoded` says whether the response headers decode. -/
def httpServerRespond (decoded : Except String Unit) (requestId : UInt32) (server : HttpServer)
    : Except String Unit × HttpServer :=
  match decoded.bind (fun _ => server.takeFulfiller requestId) with
  | .error text => (.error text, server)
  | .ok (number, taken) => (.ok (), taken.fulfill number .http)

/-- The run loop's branch of a response with a completion: what fails before the fulfiller is
taken fails the completion; after that the loop pumps until the completion is done.
-/
def respondWith (command : Nat → HttpServerResponseCommand) (decoded : Except String Unit)
    (requestId : UInt32) (server : HttpServer) : HttpServer :=
  let completion := server.completions
  let server := { server with completions := completion + 1 }
  match decoded.bind (fun _ => server.takeFulfiller requestId) with
  | .error text => server.complete completion (.error text)
  | .ok (number, taken) =>
      { taken.fulfill number (command completion) with pumping := some completion }

def httpServerRespondWebSocket : Except String Unit → UInt32 → HttpServer → HttpServer :=
  respondWith .webSocket

def httpServerRespondStartStreaming : Except String Unit → UInt32 → HttpServer → HttpServer :=
  respondWith .httpStreaming

/-- Destroying the server destroys its connections and with them the requests' promises. -/
def httpServerRelease (server : HttpServer) : Except String Unit × HttpServer :=
  if server.released then (.error server.unknownServer, server)
  else
    (.ok (),
      { server with
        released := true
        requestQueue := []
        pendingResponses := ∅
        requestBodies := server.requestBodies.releaseForServer server.serverId
        responseBodies := server.responseBodies.releaseForServer server.serverId
        requests := server.requests.map (fun request => { request with phase := .ended }) })

end HttpServer

-----------------------------------------------------------------------------------------
-- Events and operations
-----------------------------------------------------------------------------------------

/-- The first four come from the event loop, also while the run loop pumps it; then come the
operations that the run loop takes from the runtime's queue. Other servers of the runtime
change the body tables, but not this server's entries.
-/
inductive HttpServerStep where
  | request (head : HttpRequestHead)
  | destroyPromise (number : Nat)
  | runContinuation (number : Nat) (failure : Option String) (webSocketId : UInt32)
  | stopPumping
  | poll
  | respond (decoded : Except String Unit) (requestId : UInt32)
  | respondWebSocket (decoded : Except String Unit) (requestId : UInt32)
  | respondStartStreaming (decoded : Except String Unit) (requestId : UInt32)
  | releaseRequestBody (id : UInt32)
  | releaseResponseBody (id : UInt32)
  | release
  | otherServers (requestBodies responseBodies : BodyTable)

/-- The effect of an operation from the queue. -/
def HttpServerStep.operation (server : HttpServer) : HttpServerStep → Option HttpServer
  | .poll => some server.httpServerPollRequest.2
  | .respond decoded requestId => some (server.httpServerRespond decoded requestId).2
  | .respondWebSocket decoded requestId =>
      some (server.httpServerRespondWebSocket decoded requestId)
  | .respondStartStreaming decoded requestId =>
      some (server.httpServerRespondStartStreaming decoded requestId)
  | .releaseRequestBody id => some { server with requestBodies := server.requestBodies.erase id }
  | .releaseResponseBody id =>
      some { server with responseBodies := server.responseBodies.erase id }
  | .release => some server.httpServerRelease.2
  | .request _ | .destroyPromise _ | .runContinuation _ _ _ | .stopPumping
  | .otherServers _ _ => none

def HttpServerStep.run (server : HttpServer) (step : HttpServerStep) : Option HttpServer :=
  match step with
  | .request head => if server.released then none else server.request head
  | .destroyPromise number => server.destroyPromise number
  | .runContinuation number failure webSocketId =>
      server.runContinuation number failure webSocketId
  | .stopPumping =>
      if server.pumping.any (fun completion => completion ∈ server.completed.map Prod.fst) then
        some { server with pumping := none }
      else none
  | .otherServers requestBodies responseBodies =>
      if requestBodies.ownersOf server.serverId
            = server.requestBodies.ownersOf server.serverId
          ∧ responseBodies.ownersOf server.serverId
            = server.responseBodies.ownersOf server.serverId then
        some { server with requestBodies := requestBodies, responseBodies := responseBodies }
      else none
  | step => if server.pumping.isNone then step.operation server else none

def httpServerSystem (serverId : UInt32) : Transition.System HttpServer HttpServerStep :=
  .ofFunction { serverId := serverId } HttpServerStep.run

end Capnp.KjAsync
