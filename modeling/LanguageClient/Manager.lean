import LanguageClient.Session.Step
/-!
# Several servers

The manager has one session for each configured server, each with a name of its own, and one host for
all of them.  It starts and stops all sessions at once, and passes every event of the editor on to
each session, one after another; a session that fails does not disturb the others.
-/

namespace LanguageClient

/-- A task of a session that is done by the manager. -/
structure Errand where
  session : Nat
  task : Nat
  deriving DecidableEq, Repr, Inhabited

/-- A task of the manager. -/
inductive ManagerTask where
  | starting (errands : List Errand)
  | stopping (errands : List Errand)
  /-- Events are passed on, each to one session after another.  `waiting` are the sessions that do
      not have the first event yet, `errand` is the session that is getting it. -/
  | passOn (events : List DocumentEvent) (waiting : List Nat) (errand : Option Errand)
  deriving Inhabited

structure Manager where
  host : Host
  sessions : List Session := []
  tasks : List ManagerTask := []
  deriving Inhabited

/-- Who takes a step among several sessions. -/
inductive Worker where
  | session (i : Nat) (actor : Actor)
  | manager (k : Nat)
  deriving DecidableEq, Repr, Inhabited

namespace Manager

/-! ## Sessions -/

def session? (m : Manager) (name : String) : Option Session :=
  m.sessions.find? (·.name == name)

def add (m : Manager) (s : Session) : Manager :=
  if (m.session? s.name).isSome then m else { m with sessions := m.sessions ++ [s] }

/-- A session for every server in use. -/
def ofConfig (config : ClientConfig) (host : Host) : Manager :=
  config.effectiveServers.foldl
    (fun m server => m.add (.ofConfig server (.ofSettings server config.files))) { host }

def status (m : Manager) : List (String × SessionState) :=
  m.sessions.map fun s => (s.name, s.state)

def onSession (m : Manager) (i : Nat) (f : Session → Session) : Manager :=
  { m with sessions := m.sessions.modify i f }

def spawn (m : Manager) (i : Nat) (task : Task) : Manager :=
  m.onSession i (·.spawn task)

/-- The number that the next task of a session gets. -/
def nextTask (m : Manager) (i : Nat) : Nat :=
  ((m.sessions[i]?).map (·.tasks.length)).getD 0

def task? (m : Manager) (e : Errand) : Option Task :=
  (m.sessions[e.session]?).bind (·.tasks[e.task]?)

/-- Settles what every attempt to reach a server comes to. -/
def withReach (m : Manager) (reach : ServerTransport → ConnectOutcome) : Manager :=
  { m with sessions := m.sessions.map fun s => { s with connectorRest := reach s.transport } }

/-! ## Tasks -/

/-- Gives every session a task that the manager does. -/
def spawnEach (m : Manager) (task : Task) : Manager × List Errand :=
  let numbers := List.range m.sessions.length
  (numbers.foldl (fun m i => m.spawn i task) m,
    numbers.map fun i => (⟨i, m.nextTask i⟩ : Errand))

def startAll (m : Manager) : Manager :=
  let (m, errands) := m.spawnEach (.start .locking)
  { m with tasks := m.tasks ++ [.starting errands] }

def stopAll (m : Manager) : Manager :=
  let (m, errands) := m.spawnEach (.stop .entering)
  { m with tasks := m.tasks ++ [.stopping errands] }

def passOn (m : Manager) (events : List DocumentEvent) : Manager :=
  { m with tasks := m.tasks ++ [.passOn events (List.range m.sessions.length) none] }

/-- The tasks of sessions that are the manager's to do. -/
def errands (m : Manager) : List Errand :=
  m.tasks.flatMap fun
    | .starting errands | .stopping errands => errands
    | .passOn _ _ errand => errand.toList

def hasEnded : Task → Bool
  | .start (.ended _) | .stop .ended | .watch _ .ended | .event _ (.ended _)
  | .delivery _ _ _ .ended | .query _ (.ended _) | .request _ _ _ (.ended _) => true
  | _ => false

def isDone (m : Manager) : ManagerTask → Bool
  | .starting errands | .stopping errands => errands.all fun e => (m.task? e).any hasEnded
  | .passOn events _ _ => events.isEmpty

/-- How the start of a session has ended: with nothing or with the reason why it failed. -/
def startResult? (m : Manager) (e : Errand) : Option (String × Option ClientError) := do
  let s ← m.sessions[e.session]?
  match ← m.task? e with
  | .start (.ended (.ok ())) => some (s.name, none)
  | .start (.ended (.error e)) => some (s.name, some e)
  | _ => none

/-- How the starts of a task have ended; none while one of them has not. -/
def startResults? (m : Manager) (k : Nat) : Option (List (String × Option ClientError)) := do
  match ← m.tasks[k]? with
  | .starting errands => errands.mapM (startResult? m)
  | _ => none

/-- One step of an actor of a session; none when it has to wait. -/
def stepSession (now : Nat) (m : Manager) (i : Nat) (actor : Actor) : Option Manager := do
  let s ← m.sessions[i]?
  let (host, s) ← s.step now m.host actor
  return { m with host, sessions := m.sessions.set i s }

/-- One step of a task of the manager; none when it has to wait. -/
def stepManager (now : Nat) (m : Manager) (k : Nat) : Option Manager := do
  let put (m : Manager) (task : ManagerTask) : Manager := { m with tasks := m.tasks.set k task }
  match ← m.tasks[k]? with
  | .starting errands | .stopping errands =>
    errands.findSome? fun e => m.stepSession now e.session (.task e.task)
  | .passOn [] _ _ => none
  | .passOn (_ :: events) [] none => return put m (.passOn events (List.range m.sessions.length) none)
  | .passOn (event :: events) (i :: waiting) none =>
    let errand := (⟨i, m.nextTask i⟩ : Errand)
    return put (m.spawn i (.event event .locking)) (.passOn (event :: events) waiting (some errand))
  | .passOn events waiting (some e) =>
    if (m.task? e).any hasEnded then return put m (.passOn events waiting none)
    else m.stepSession now e.session (.task e.task)

/-- One step of a worker; none when it has to wait. -/
def step (now : Nat) (m : Manager) : Worker → Option Manager
  | .session i actor => m.stepSession now i actor
  | .manager k => m.stepManager now k

/-- All who may take a step. -/
def workers (m : Manager) : List Worker :=
  let errands := m.errands
  (m.sessions.zipIdx.flatMap fun (s, i) =>
    (s.actors.filter fun
      | .task t => !errands.contains ⟨i, t⟩
      | _ => true).map (.session i))
  ++ (List.range m.tasks.length).map .manager

/-- The work on files that a handler of a session waits for is done; none when it does not wait for
    any. -/
def finishFiles (m : Manager) (i c j : Nat) : Option Manager := do
  let s ← m.sessions[i]?
  let s ← s.finishFiles m.host c j
  return { m with sessions := m.sessions.set i s }

/-- The handlers of all sessions that have begun. -/
def handlers (m : Manager) : List (Nat × Nat × Nat) :=
  m.sessions.zipIdx.flatMap fun (s, i) => s.handlers.map fun ((c, j), _) => (i, c, j)

end Manager

end LanguageClient
