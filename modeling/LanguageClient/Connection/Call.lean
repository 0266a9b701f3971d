import LanguageClient.Connection.Basic
import LanguageClient.Settings.Timeout
/-!
# Requests of the client

A call is one request of the client from its beginning to its outcome.  `Call.step` runs it up to the
next point where it has to wait: for a table, for the writer, or for the response.  While it waits
for the response its time may run out, or its token may fire; the response wins over both.
-/

namespace LanguageClient

/-- Where a call stands. -/
inductive CallPhase where
  /-- Nothing has happened. -/
  | entering
  /-- The call has a number and waits for the table of requests. -/
  | admitted (id : Nat)
  /-- The number is in the table, and the writer is waited for. -/
  | registered (id : Nat)
  /-- The request is written. -/
  | waiting (id : Nat) (deadline : Nat)
  /-- The request could not be written; its number has to be taken out of the table. -/
  | withdrawing (id : Nat) (e : ClientError)
  /-- The client gives up; the number has to be taken out of the table. -/
  | abandoning (id : Nat) (e : ClientError)
  /-- The server has to be told that the client has given up. -/
  | notifying (id : Nat) (e : ClientError)
  | ended (result : Except ClientError Json)
  deriving Inhabited

/-- A request of the client. -/
structure Call where
  method : String
  params : Option Json
  /-- The token of the call has fired. -/
  cancelled : Bool := false
  phase : CallPhase := .entering
  deriving Inhabited

namespace Call

/-- The outcome that a response stands for. -/
def outcomeOf (c : Connection) (response : Response) : Except ClientError Json :=
  match response.outcome with
  | .ok v => .ok v
  | .error e =>
    if e.code = ErrorCode.serverTerminated then .error c.terminatedError
    else if e.code = ErrorCode.requestCancelled then .error .cancelled
    else .error (.server e)

/-- Reads the result of a request as a value of a type. -/
def decode {α : Type} [Payload α] (result : Except ClientError Json) : Except ClientError α :=
  result.bind fun v => (ofJson v : Decoded α).mapError fun e => .protocol e.message

def timeoutError (c : Connection) (method : String) : ClientError :=
  .timeout (c.name ++ " '" ++ method
    ++ "' timed out. The language server may be busy or unresponsive")

/-- The message that tells the server that a request is not wanted any more. -/
def cancelMessage (id : Nat) : Message :=
  .notification {
    method := Connection.cancelMethod, params := some (.object [("id", .int id)]) }

def result? (call : Call) : Option (Except ClientError Json) :=
  match call.phase with
  | .ended result => some result
  | _ => none

/-- One step of a call; none when it has to wait. -/
def step (now : Nat) (c : Connection) (call : Call) : Option (Connection × Call) :=
  let move (c : Connection) (phase : CallPhase) : Option (Connection × Call) :=
    some (c, { call with phase })
  match call.phase with
  | .entering =>
    if c.terminated then move c (.ended (.error c.terminatedError))
    else if call.cancelled then move c (.ended (.error .cancelled))
    else move { c with nextId := c.nextId + 1 } (.admitted c.nextId)
  | .admitted id =>
    if c.terminated then move c (.ended (.error c.terminatedError))
    else move { c with pending := c.pending ++ [id] } (.registered id)
  | .registered id =>
    let request : Request :=
      { id := .number (UInt64.ofNat id), method := call.method, params := call.params }
    if c.busy then none
    else
      match c.write (.request request) with
      | .ok c => move c (.waiting id (now + TimingSettings.standardMillis call.method))
      | .error e => move c (.withdrawing id e)
  | .waiting id deadline =>
    match c.replies.get? id with
    | some response =>
      move { c with replies := c.replies.erase id } (.ended (outcomeOf c response))
    | none =>
      if deadline ≤ now then move c (.abandoning id (timeoutError c call.method))
      else if call.cancelled then move c (.abandoning id .cancelled)
      else none
  | .withdrawing id e =>
    move { c with pending := c.pending.erase id, replies := c.replies.erase id } (.ended (.error e))
  | .abandoning id e =>
    if c.pending.contains id then
      move { c with pending := c.pending.erase id } (.notifying id e)
    else move { c with replies := c.replies.erase id } (.ended (.error e))
  | .notifying id e =>
    if c.busy then none else move (c.tryWrite (cancelMessage id)) (.ended (.error e))
  | .ended _ => none

def deadline? (call : Call) : Option Nat :=
  match call.phase with
  | .waiting _ deadline => some deadline
  | _ => none

end Call

end LanguageClient
