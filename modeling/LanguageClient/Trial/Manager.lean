import LanguageClient.Manager
import LanguageClient.Trial.Schedule
/-!
# Sessions on trial

All sessions of a manager with a clock of their own.  The workers come into the trial in the order in
which they came to be.
-/

namespace LanguageClient.Trial

/-- Something that was begun: a task of a session or one of the manager. -/
inductive Undertaking where
  | errand (e : Errand)
  | manager (k : Nat)
  deriving DecidableEq, Repr, Inhabited

/-- What an undertaking has come to. -/
inductive Outcome where
  | value (v : Json)
  | failed (e : ClientError)
  /-- The servers that were to start, each with the reason if it did not. -/
  | starts (results : List (String × Option ClientError))
  deriving Inhabited

/-- A manager and a clock. -/
structure ManagerTrial where
  manager : Manager
  now : Nat := 0
  /-- All workers there ever were, in the order in which they came. -/
  workers : List Worker := []
  /-- All that was begun, each under a tag. -/
  begun : List (String × Undertaking) := []
  deriving Inhabited

/-- What has happened between two moments of a trial. -/
structure Observation where
  /-- The messages that servers got, with the numbers of their sessions. -/
  sent : List (Nat × Message)
  /-- The sessions whose server has seen the end of what it gets. -/
  released : List Nat
  ended : List (String × Outcome)
  asked : List HostEvent
  log : List (LogLevel × String)

namespace ManagerTrial

/-- Takes up the workers that have come to be. -/
def adopt (t : ManagerTrial) : ManagerTrial :=
  { t with workers :=
      t.workers ++ t.manager.workers.filter fun worker => !t.workers.contains worker }

/-- Changes the manager from outside. -/
def act (t : ManagerTrial) (f : Manager → Manager) : ManagerTrial :=
  { t with manager := f t.manager }.adopt

/-- Begins a task of a session. -/
def begin (t : ManagerTrial) (tag : String) (i : Nat) (task : Task) : ManagerTrial :=
  let e : Errand := ⟨i, t.manager.nextTask i⟩
  { t.act (·.spawn i task) with begun := t.begun ++ [(tag, .errand e)] }

/-- Begins a task of the manager. -/
def beginManager (t : ManagerTrial) (tag : String) (f : Manager → Manager) : ManagerTrial :=
  let k := t.manager.tasks.length
  { t.act f with begun := t.begun ++ [(tag, .manager k)] }

/-- Fires the tokens of the requests that were begun under a tag. -/
def cancel (t : ManagerTrial) (tag : String) : ManagerTrial :=
  t.begun.foldl (fun t (name, undertaking) =>
    match undertaking with
    | .errand e =>
      if name = tag then t.act (·.onSession e.session (·.cancelRequest e.task)) else t
    | .manager _ => t) t

/-- Changes the newest connection of a session, if there is one. -/
def onNewest (t : ManagerTrial) (i : Nat) (f : Connection → Connection) : ManagerTrial :=
  t.act (·.onSession i fun s =>
    if s.connections.isEmpty then s else s.onConnection (s.connections.length - 1) f)

/-- The outcome of a result. -/
def outcomeOf {α : Type} (value : α → Json) : Except ClientError α → Outcome
  | .ok x => .value (value x)
  | .error e => .failed e

/-- What a task has come to. -/
def taskOutcome? : Task → Option Outcome
  | .start (.ended r) => some (outcomeOf (fun _ => .null) r)
  | .stop .ended => some (.value .null)
  | .event e (.ended r) => some (outcomeOf (fun _ => .str e.uri) r)
  | .query _ (.ended r) => some (outcomeOf (fun edits => (edits.map toJson).getD .null) r)
  | .request _ _ _ (.ended r) => some (outcomeOf id r)
  | _ => none

/-- What an undertaking has come to. -/
def outcome? (m : Manager) : Undertaking → Option Outcome
  | .errand e => (m.task? e).bind taskOutcome?
  | .manager k => do
    let task ← m.tasks[k]?
    if !m.isDone task then none
    else
      match task with
      | .starting _ => (m.startResults? k).map Outcome.starts
      | _ => some (.value .null)

/-- What the servers of a session got since `before`. -/
def messagesSince (before after : Session) : List Message :=
  after.connections.zipIdx.flatMap fun (c, n) =>
    c.sent.drop (((before.connections[n]?).map (·.sent.length)).getD 0)

/-- Whether a server of a session has seen the end since `before`. -/
def releasedSince (before after : Session) : Bool :=
  after.connections.zipIdx.any fun (c, n) =>
    c.released && !c.peerGone && !((before.connections[n]?).map (·.released)).getD false

/-- What has happened since `before`. -/
def since (before t : ManagerTrial) : Observation :=
  let old := before.manager
  let new := t.manager
  let sessions := (old.sessions.zip new.sessions).zipIdx
  { sent := sessions.flatMap fun ((a, b), i) => (messagesSince a b).map fun m => (i, m)
    released := sessions.filterMap fun ((a, b), i) => if releasedSince a b then some i else none
    ended := t.begun.filterMap fun (tag, undertaking) =>
      match outcome? new undertaking, outcome? old undertaking with
      | some outcome, none => some (tag, outcome)
      | _, _ => none
    asked := new.host.asked.drop old.host.asked.length
    log := new.host.log.drop old.host.log.length }

/-- The trial as a system of tasks. -/
def system : System ManagerTrial Worker where
  tasks := workers
  step t worker := (t.manager.step t.now worker).map fun manager => { t with manager }.adopt
  background t :=
    (t.manager.handlers.findSome? fun (i, c, j) => t.manager.finishFiles i c j).map fun manager =>
      { t with manager }
  now := now
  setNow t now := { t with now }
  deadlines t := t.manager.sessions.flatMap Session.deadlines

end ManagerTrial

end LanguageClient.Trial
