import LanguageClient.Error
import LanguageClient.Table
import LanguageClient.Wire.Frame
/-!
# Connections

The state of a connection to a server, and the steps in which it changes.

Several tasks work on a connection: a read loop, one job for every request of the server, and the
callers.  A task may be interrupted only where it has to wait, so what happens between two such
points is one step.  Each phase below is a point where a task waits, and tells for what.

* `stepRead` runs the read loop.  It stops at `handling`, where the owner of the connection runs the
  handler of a notification and then calls `finishHandling` or `crashHandling`.
* `stepJob` runs a job.  It stops at `running`, where the owner runs the handler of the request and
  then calls `finishJob`.

One message is written at a time.  A message that the server does not take holds the writer
(`stalled`), and all who want to write, or to close, wait with it.

When the read loop ends, every request that waits for its response gets one that says so.
-/

namespace LanguageClient

/-- What a handler of a request comes to. -/
inductive HandlerOutcome where
  | value (v : Json)
  | failed (e : ClientError)
  /-- The handler ended without an answer. -/
  | crashed
  deriving DecidableEq, Inhabited

/-- Where the job for a request of the server stands. -/
inductive JobPhase where
  | spawned
  | running
  /-- The handler has ended; the id has to be taken out of the table. -/
  | returned (outcome : HandlerOutcome)
  | answering (response : Response)
  | ended
  deriving DecidableEq, Inhabited

structure Job where
  request : Request
  phase : JobPhase := .spawned
  /-- The server has cancelled the request, or the connection has ended. -/
  cancelled : Bool := false
  deriving DecidableEq, Inhabited

/-- Where the read loop stands. -/
inductive ReadPhase where
  /-- Nobody listens yet. -/
  | idle
  | reading
  | settling (id : RequestId) (response : Response)
  | dispatching (request : Request)
  /-- Nobody handles the request, and the writer is waited for. -/
  | refusing (request : Request)
  /-- The request has a handler and waits for the table of incoming requests. -/
  | admitting (request : Request)
  /-- The server cancels a request; the table of incoming requests is waited for. -/
  | cancelling (id : RequestId)
  | noticing (notification : Notification)
  | handling (notification : Notification)
  /-- The connection has ended; the table of requests is waited for. -/
  | draining
  /-- The requests are told; the table of incoming requests is waited for. -/
  | releasing
  | ended
  /-- A handler of a notification has crashed and taken the loop with it. -/
  | crashed
  deriving DecidableEq, Inhabited

structure Connection where
  name : String
  requestMethods : List String := []
  notificationMethods : List String := []
  reader : FrameReader := {}
  readPhase : ReadPhase := .idle
  listening : Bool := false
  /-- The client still has its end for writing. -/
  writable : Bool := true
  peerGone : Bool := false
  /-- A message is being written that the server does not take. -/
  stalled : Bool := false
  sent : List Message := []
  nextId : Nat := 1
  /-- The numbers of the requests that wait for a response. -/
  pending : List Nat := []
  /-- Responses that were assigned to a request and not fetched yet. -/
  replies : Table Nat Response := []
  /-- The requests of the server that are handled, each with its job. -/
  incoming : Table RequestId Nat := []
  jobs : List Job := []
  /-- The client has asked the read loop to end. -/
  shutdown : Bool := false
  terminated : Bool := false
  deriving Inhabited

namespace Connection

/-! ## Small steps -/

/-- The method by which a request is cancelled. -/
def cancelMethod : String := "$/cancelRequest"

/-- The error of a request when the connection has ended. -/
def terminatedError (c : Connection) : ClientError :=
  .terminated c.name

/-- Whether the writer has to be waited for.  A write that waits fails when the server goes away. -/
def busy (c : Connection) : Bool :=
  c.stalled && c.writable && !c.peerGone

def write (c : Connection) (m : Message) : Except ClientError Connection :=
  if !c.writable then .error .notConnected
  else if c.peerGone then .error (.system .brokenPipe)
  else .ok { c with sent := c.sent ++ [m] }

def tryWrite (c : Connection) (m : Message) : Connection :=
  match c.write m with
  | .ok c => c
  | .error _ => c

def onRequest (c : Connection) (method : String) : Except ClientError Connection :=
  if c.requestMethods.contains method then .error (.duplicateHandler method)
  else .ok { c with requestMethods := c.requestMethods ++ [method] }

def onNotification (c : Connection) (method : String) : Except ClientError Connection :=
  if c.notificationMethods.contains method then .error (.duplicateHandler method)
  else .ok { c with notificationMethods := c.notificationMethods ++ [method] }

def listen (c : Connection) : Except ClientError Connection :=
  if c.listening then .error .alreadyListening
  else .ok { c with listening := true, readPhase := .reading }

/-- The response that requests get when the connection has ended. -/
def terminationResponse (c : Connection) (id : Nat) : Response :=
  .failure (.number (UInt64.ofNat id))
    { code := ErrorCode.serverTerminated, message := c.terminatedError.message }

/-- The connection ends; the requests are not told yet. -/
def terminate (c : Connection) : Connection :=
  { c with terminated := true }

/-- Tells every request that waits that the connection has ended. -/
def drain (c : Connection) : Connection :=
  { c with
    pending := []
    replies := c.pending.foldl (fun replies id => replies.put id (c.terminationResponse id))
      c.replies }

def modifyJob (c : Connection) (j : Nat) (f : Job → Job) : Connection :=
  { c with jobs := c.jobs.modify j f }

/-- Cancels the requests of the server that are still handled. -/
def release (c : Connection) : Connection :=
  let cancelled := c.incoming.values.foldl
    (fun c j => c.modifyJob j fun job => { job with cancelled := true }) c
  { cancelled with incoming := [] }

/-- Whether the job of a request has to stop. -/
def jobCancelled (c : Connection) (job : Job) : Bool :=
  job.cancelled || c.terminated

/-- Assigns a response to the request that waits under the number of its id. -/
def settle (c : Connection) (id : RequestId) (response : Response) : Connection :=
  match id.asNumber with
  | none => c
  | some n =>
    if c.pending.contains n then
      { c with pending := c.pending.erase n, replies := c.replies.put n response }
    else c

def cancelIncoming (c : Connection) (id : RequestId) : Connection :=
  match c.incoming.get? id with
  | some j => c.modifyJob j fun job => { job with cancelled := true }
  | none => c

/-- Starts the job for a request of the server. -/
def spawnJob (c : Connection) (request : Request) : Connection :=
  { c with
    incoming := c.incoming.put request.id c.jobs.length
    jobs := c.jobs ++ [{ request }] }

/-! ## The read loop -/

/-- The id in the parameters of a cancellation. -/
def cancelledId? (params : Option Json) : Option RequestId :=
  match (params.bind (·.get? "id")).map (ofJson : Json → Decoded RequestId) with
  | some (.ok id) => some id
  | _ => none

/-- Where the read loop goes with a message. -/
def phaseFor : Message → ReadPhase
  | .response r =>
    match r.id with
    | some id => .settling id r
    | none => .reading
  | .request r => .dispatching r
  | .notification n =>
    if n.method = cancelMethod then
      match cancelledId? n.params with
      | some id => .cancelling id
      | none => .reading
    else .noticing n

/-- The read loop leaves and begins to end the connection. -/
def leave (c : Connection) : Connection :=
  { c.terminate with readPhase := .draining }

/-- One step of the read loop; none when it has to wait. -/
def stepRead (c : Connection) : Option Connection :=
  match c.readPhase with
  | .idle | .handling _ | .ended | .crashed => none
  | .reading =>
    if c.shutdown then some c.leave
    else
      match c.reader.read with
      | .starved => none
      | .ended reader => some { c with reader }.leave
      | .failed e reader =>
        if e.isMalformed then some { c with reader } else some { c with reader }.leave
      | .read m reader => some { c with reader, readPhase := phaseFor m }
  | .settling id response => some { c.settle id response with readPhase := .reading }
  | .dispatching request =>
    let handled := c.requestMethods.contains request.method
    some { c with readPhase := if handled then .admitting request else .refusing request }
  | .refusing request =>
    let answer := Response.failure request.id (.methodNotFound request.method)
    if c.busy then none else some { c.tryWrite (.response answer) with readPhase := .reading }
  | .admitting request => some { c.spawnJob request with readPhase := .reading }
  | .cancelling id => some { c.cancelIncoming id with readPhase := .reading }
  | .noticing n =>
    let handled := c.notificationMethods.contains n.method
    some { c with readPhase := if handled then .handling n else .reading }
  | .draining => some { c.drain with readPhase := .releasing }
  | .releasing => some { c.release with readPhase := .ended }

/-- The read loop takes the next frame although it was asked to end: of two things that are ready it
    may take either.  None when no frame is there. -/
def readOn (c : Connection) : Option Connection :=
  match c.readPhase, c.reader.read with
  | .reading, .read m reader => some { c with reader, readPhase := phaseFor m }
  | .reading, .failed e reader => if e.isMalformed then some { c with reader } else none
  | _, _ => none

def finishHandling (c : Connection) : Connection :=
  match c.readPhase with
  | .handling _ => { c with readPhase := .reading }
  | _ => c

def crashHandling (c : Connection) : Connection :=
  match c.readPhase with
  | .handling _ => { c with readPhase := .crashed }
  | _ => c

/-! ## Jobs -/

/-- The answer that an outcome leads to. -/
def answerFor (request : Request) : HandlerOutcome → Response
  | .value v => .success request.id v
  | .failed e => .failure request.id e.toResponseError
  | .crashed =>
    .failure request.id
      { code := ErrorCode.internalError
        message := "Request handler for " ++ request.method ++ " failed" }

/-- One step of a job; none when it has to wait. -/
def stepJob (c : Connection) (j : Nat) : Option Connection := do
  let job ← c.jobs[j]?
  let move (c : Connection) (phase : JobPhase) : Connection :=
    c.modifyJob j fun job => { job with phase }
  match job.phase with
  | .spawned => some (move c .running)
  | .running | .ended => none
  | .returned outcome =>
    some (move { c with incoming := c.incoming.erase job.request.id }
      (.answering (answerFor job.request outcome)))
  | .answering response =>
    if c.busy then none else some (move (c.tryWrite (.response response)) .ended)

def finishJob (c : Connection) (j : Nat) (outcome : HandlerOutcome) : Connection :=
  c.modifyJob j fun job =>
    match job.phase with
    | .running => { job with phase := .returned outcome }
    | _ => job

/-! ## The other end -/

def feed (c : Connection) (octets : List UInt8) : Connection :=
  { c with reader := { c.reader with stream := c.reader.stream.feed octets } }

/-- The server closes both directions. -/
def hangUp (c : Connection) : Connection :=
  { c with
    peerGone := true
    reader := { c.reader with stream := c.reader.stream.finish } }

/-- Whether the client has let go of both directions, so that the server sees the end. -/
def released (c : Connection) : Bool :=
  !c.writable && (c.readPhase == .ended || c.readPhase == .crashed)

/-! ## Closing -/

end Connection

/-- Where somebody who closes a connection stands. -/
inductive Closing where
  | unwriting
  /-- Nobody listened; the table of requests is waited for. -/
  | draining
  | releasing
  | ended
  deriving DecidableEq, Inhabited

namespace Connection

def beginClose (c : Connection) : Connection :=
  { c with shutdown := true }

/-- One step of closing; none when it is done or has to wait.  A connection that nobody listened to
    has no read loop that could end it. -/
def stepClose (c : Connection) : Closing → Option (Connection × Closing)
  | .unwriting =>
    if c.busy then none
    else
      let c := { c with writable := false }
      if c.listening then some (c, .ended) else some (c.terminate, .draining)
  | .draining => some (c.drain, .releasing)
  | .releasing => some (c.release, .ended)
  | .ended => none

end Connection

end LanguageClient
