import LanguageClient.Connection.Call
import LanguageClient.Trial.Schedule
/-!
# A connection on trial

A connection together with its callers, with handlers that follow a script, and with a clock of its
own.  The trial records what the handlers see.
-/

namespace LanguageClient.Trial

/-- What a handler of a request does. -/
inductive Behaviour where
  /-- Answers the parameters. -/
  | echo
  | value (v : Json)
  | fail (e : ClientError)
  | crash
  /-- Waits until it is cancelled. -/
  | waitCancel
  /-- Waits for a time. -/
  | sleep (millis : Nat)
  deriving Inhabited

/-- A task of a trial. -/
inductive ConnectionTask where
  | reader
  | call (n : Nat)
  | close (n : Nat)
  | watch (n : Nat)
  | job (n : Nat)
  | handler (n : Nat)
  deriving DecidableEq

/-- A connection and all who work on it. -/
structure ConnectionTrial where
  connection : Connection
  now : Nat := 0
  calls : List Call := []
  closings : List Closing := []
  /-- Those who wait for the end of the connection: whether they know of it. -/
  watchers : List Bool := []
  handlers : Table String Behaviour := []
  /-- When the handler of a job has begun. -/
  begun : Table Nat Nat := []
  tasks : List ConnectionTask := [.reader]
  /-- What the handlers have seen, in order. -/
  seen : List Json := []
  deriving Inhabited

namespace ConnectionTrial

/-- Records what a handler sees. -/
def note (t : ConnectionTrial) (members : List (String × Json)) : ConnectionTrial :=
  { t with seen := t.seen ++ [.object members] }

/-- Takes the tasks up that the connection has started. -/
def adopt (t : ConnectionTrial) : ConnectionTrial :=
  let known := t.tasks
  let news := (List.range t.connection.jobs.length).flatMap fun j =>
    [ConnectionTask.job j, .handler j].filter fun task => !known.contains task
  { t with tasks := t.tasks ++ news }

/-- One step of the handler of a job. -/
def stepHandler (t : ConnectionTrial) (j : Nat) : Option ConnectionTrial := do
  let job ← t.connection.jobs[j]?
  guard (job.phase = .running)
  let behaviour := (t.handlers.get? job.request.method).getD .echo
  let finish (t : ConnectionTrial) (outcome : HandlerOutcome) : Option ConnectionTrial :=
    some { t with connection := t.connection.finishJob j outcome }
  match t.begun.get? j with
  | none =>
    let t := { t with begun := t.begun.put j t.now }.note
      [("request", .str job.request.method), ("params", job.request.params.getD .null)]
    match behaviour with
    | .echo => finish t (.value (job.request.params.getD .null))
    | .value v => finish t (.value v)
    | .fail e => finish t (.failed e)
    | .crash => finish t .crashed
    | .waitCancel | .sleep _ => some t
  | some start =>
    match behaviour with
    | .waitCancel =>
      if t.connection.jobCancelled job then
        finish (t.note [("cancelled", .str job.request.method)]) (.failed .cancelled)
      else none
    | .sleep millis =>
      if start + millis ≤ t.now then finish t (.value (.object [("slept", .int millis)]))
      else none
    | _ => none

/-- One step of the read loop and of the handlers that run in it. -/
def stepReader (t : ConnectionTrial) : Option ConnectionTrial :=
  match t.connection.readPhase with
  | .handling n =>
    let t := t.note [("notification", .str n.method), ("params", n.params.getD .null)]
    some { t with connection := t.connection.finishHandling }
  | _ => t.connection.stepRead.map fun connection => { t with connection }

/-- One step of a task. -/
def step (t : ConnectionTrial) (task : ConnectionTask) : Option ConnectionTrial :=
  (match task with
    | .reader => t.stepReader
    | .call n => do
      let call ← t.calls[n]?
      let (connection, call) ← call.step t.now t.connection
      some { t with connection, calls := t.calls.set n call }
    | .close n => do
      let closing ← t.closings[n]?
      let (connection, closing) ← t.connection.stepClose closing
      some { t with connection, closings := t.closings.set n closing }
    | .watch n =>
      if t.connection.terminated && t.watchers[n]? == some false then
        some { t with watchers := t.watchers.set n true }
      else none
    | .job n => (t.connection.stepJob n).map fun connection => { t with connection }
    | .handler n => t.stepHandler n).map adopt

/-- The moments for which somebody waits. -/
def deadlines (t : ConnectionTrial) : List Nat :=
  t.calls.filterMap Call.deadline? ++ t.begun.filterMap fun (j, start) =>
    match t.connection.jobs[j]?, (t.connection.jobs[j]?).bind
        fun job => t.handlers.get? job.request.method with
    | some job, some (.sleep millis) => if job.phase = .running then some (start + millis) else none
    | _, _ => none

/-- The trial as a system of tasks. -/
def system : System ConnectionTrial ConnectionTask where
  tasks := tasks
  step := step
  background _ := none
  now := now
  setNow t now := { t with now }
  deadlines := deadlines

/-- Begins a request. -/
def request (t : ConnectionTrial) (call : Call) : ConnectionTrial :=
  { t with calls := t.calls ++ [call], tasks := t.tasks ++ [.call t.calls.length] }

/-- Fires the token of a request. -/
def cancel (t : ConnectionTrial) (n : Nat) : ConnectionTrial :=
  { t with calls := t.calls.modify n fun call => { call with cancelled := true } }

/-- Begins to close the connection. -/
def close (t : ConnectionTrial) : ConnectionTrial :=
  { t with
    connection := t.connection.beginClose
    closings := t.closings ++ [.unwriting]
    tasks := t.tasks ++ [.close t.closings.length] }

/-- Begins to wait for the end of the connection. -/
def watch (t : ConnectionTrial) : ConnectionTrial :=
  { t with watchers := t.watchers ++ [false], tasks := t.tasks ++ [.watch t.watchers.length] }

end ConnectionTrial

end LanguageClient.Trial
