import LanguageClient.Session.Document
import LanguageClient.Session.Handler
import LanguageClient.Session.Lifecycle
/-!
# The steps of a session

`Session.step` puts together all that can happen in a session: one of its tasks, a read loop, a job
of a connection or the handler of a job takes one step.  `Session.finishFiles` is the one thing that
happens beside them.

`actors` are those who take turns.  `Actor.readOn` is not among them: it is the other way in which a
read loop may take its turn.
-/

namespace LanguageClient

/-- Who takes a step in a session. -/
inductive Actor where
  | task (t : Nat)
  | reader (c : Nat)
  /-- The read loop of a connection, which was asked to end and goes on. -/
  | readOn (c : Nat)
  /-- The job of a request. -/
  | job (c j : Nat)
  /-- The handler that a job waits for. -/
  | handler (c j : Nat)
  deriving DecidableEq, Repr, Inhabited

namespace Session

/-- One step of a task; none when it has to wait. -/
def stepTask (now : Nat) (h : Host) (s : Session) (t : Nat) : Option (Host × Session) := do
  let keep (result : Option Session) : Option (Host × Session) := result.map fun s => (h, s)
  match ← s.tasks[t]? with
  | .start p => (s.stepStart now h t p).map fun (h, s, p) => (h, s.setTask t (.start p))
  | .stop p => keep ((s.stepStop now p).map fun (s, p) => s.setTask t (.stop p))
  | .watch c p => (s.stepWatch h c p).map fun (h, s, p) => (h, s.setTask t (.watch c p))
  | .event e p => keep ((s.stepEvent now h t e p).map fun (s, p) => s.setTask t (.event e p))
  | .delivery uri generation deadline p =>
    keep ((s.stepDelivery now t uri generation deadline p).map fun (s, p) =>
      s.setTask t (.delivery uri generation deadline p))
  | .query q p => keep ((s.stepQuery now h t q p).map fun (s, p) => s.setTask t (.query q p))
  | .request method params cancelled p =>
    keep ((s.stepRequest now method params cancelled p).map fun (s, p) =>
      s.setTask t (.request method params cancelled p))

/-- One step of an actor; none when it has to wait. -/
def step (now : Nat) (h : Host) (s : Session) : Actor → Option (Host × Session)
  | .task t => s.stepTask now h t
  | .reader c => if c < s.connections.length then s.stepReader h c else none
  | .readOn c =>
    if c < s.connections.length then
      (s.connection c).readOn.map fun connection => (h, s.setConnection c connection)
    else none
  | .job c j => ((s.connection c).stepJob j).map fun connection => (h, s.setConnection c connection)
  | .handler c j => s.stepHandler h c j

def actors (s : Session) : List Actor :=
  (List.range s.connections.length).flatMap (fun c =>
    .reader c :: (List.range (s.connection c).jobs.length).flatMap fun j =>
      [.job c j, .handler c j])
  ++ (List.range s.tasks.length).map .task

def cancelRequest (s : Session) (t : Nat) : Session :=
  match s.tasks[t]? with
  | some (.request method params _ p) => s.setTask t (.request method params true p)
  | _ => s

/-- The moment for which a task waits. -/
def deadline? : Task → Option Nat
  | .start (.initializing _ _ call) => call.deadline?
  | .start (.prompting _ _ _ deadline .pending) => some deadline
  | .stop (.asking _ call) => call.deadline?
  | .delivery _ _ deadline .waiting => some deadline
  | .query _ (.calling _ call) => call.deadline?
  | .request _ _ _ (.calling _ call) => call.deadline?
  | _ => none

/-- The moments for which somebody waits. -/
def deadlines (s : Session) : List Nat :=
  s.tasks.filterMap deadline?

end Session

end LanguageClient
