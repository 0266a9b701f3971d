import LanguageClient.Command.Stage
import LanguageClient.Trial.Manager
import LanguageClient.Trial.ScriptedServer
/-!
# Commands on trial

A command is carried out with scripted servers at the other ends of its connections.  Whatever the
client can do comes before what the servers do, and time passes only when nobody can do anything.
-/

namespace LanguageClient.Trial

/-- The program that stands for a scripted server; its first argument is the name of the script. -/
def scriptedProgram : String := "fake-ls"

/-- The script that a transport leads to. -/
def scriptName? : ServerTransport → Option String
  | .process command args => if command = scriptedProgram then some (args.head?.getD "") else none
  | .socket _ => none

/-- What an attempt to reach an address comes to, where nobody listens. -/
def dial (address : String) : SystemError :=
  match Text.splitLast ':' address.toList with
  | none => .other "invalid socket address"
  | some (_, number) =>
    match Numeral.natural? 65535 (String.ofList number) with
    | none => .other "invalid port value"
    | some _ => .other "Connection refused (os error 111)"

/-- What an attempt to reach a server comes to. -/
def reach (transport : ServerTransport) : ConnectOutcome :=
  match scriptName? transport, transport with
  | some _, _ => .opened
  | none, .process command _ => .refused (command ++ ": " ++ SystemError.noSuchFile.message)
  | none, .socket address => .refused (address ++ ": " ++ (dial address).message)

/-- A command that talks to scripted servers. -/
structure CommandTrial where
  trial : ManagerTrial
  stage : CommandStage
  scripts : Table String ServerScript := []
  /-- The servers, by session and connection. -/
  servers : Table (Nat × Nat) ScriptedServer := []
  /-- What the servers have read, each with the name of the script. -/
  received : List (String × Message) := []
  deriving Inhabited

namespace CommandTrial

/-- The next stage of the command; `timed` says that a stage that ends by time may end. -/
def stepStage (timed : Bool) (t : CommandTrial) : Option CommandTrial :=
  if t.stage.deadline?.isSome && !timed then none
  else
    (t.stage.step t.trial.now t.trial.manager).map fun (manager, stage) =>
      { t with trial := t.trial.act fun _ => manager, stage }

/-- The server at the other end of a connection reads what there is for it; none when there is
    nothing. -/
def stepServer (t : CommandTrial) (i c : Nat) : Option CommandTrial := do
  let s ← t.trial.manager.sessions[i]?
  let name ← scriptName? s.transport
  let connection ← s.connections[c]?
  let server := (t.servers.get? (i, c)).getD
    { script := (t.scripts.get? name).getD {} }
  let unread := connection.sent.drop server.seen
  guard (!server.gone && !unread.isEmpty)
  let (written, read, server) := server.receiveAll unread
  let octets := Utf8.encodeString (String.join (written.map fun v => framed v.render))
  let change (connection : Connection) : Connection :=
    let connection := connection.feed octets
    if server.gone then connection.hangUp else connection
  return { t with
    trial := t.trial.act (·.onSession i (·.onConnection c change))
    servers := t.servers.put (i, c) server
    received := t.received ++ read.map fun m => (name, m) }

/-- Some server reads what there is for it; none when there is nothing for any. -/
def stepServers (t : CommandTrial) : Option CommandTrial :=
  t.trial.manager.sessions.zipIdx.findSome? fun (s, i) =>
    (List.range s.connections.length).findSome? fun c => t.stepServer i c

/-- The next moment for which anybody waits. -/
def nextDeadline? (t : CommandTrial) : Option Nat :=
  let all := t.stage.deadline?.toList ++ ManagerTrial.system.deadlines t.trial
  (all.filter (t.trial.now < ·)).min?

/-- One step; none when nothing can happen any more. -/
def step (t : CommandTrial) : Option CommandTrial :=
  let t := { t with trial := ManagerTrial.system.settle t.trial }
  match t.stepStage false with
  | some t => some t
  | none =>
    match t.stepServers with
    | some t => some t
    | none =>
      match t.stepStage true with
      | some t => some t
      | none =>
        match t.stage, t.nextDeadline? with
        | .ended _, _ | _, none => none
        | _, some now => some { t with trial := { t.trial with now } }

/-- Steps until nothing can happen any more. -/
def run (fuel : Nat) (t : CommandTrial) : CommandTrial :=
  match fuel with
  | 0 => t
  | fuel + 1 =>
    match t.step with
    | some t => run fuel t
    | none => t

/-- What the servers that follow a script have read. -/
def receivedBy (t : CommandTrial) (name : String) : List Message :=
  (t.received.filter fun (n, _) => n = name).map (·.2)

end CommandTrial

/-- What a command has come to. -/
structure CommandOutcome where
  /-- The report that is printed, or the text of the error. -/
  result : Except String Json
  tree : FileTree
  /-- The command as it stood at its end, if it talked to servers. -/
  talk : Option CommandTrial := none
  deriving Inhabited

/-- How many steps a command may take. -/
def maxSteps : Nat := 100000

/-- Carries a command out. -/
def carryOut (site : CommandSite) (scripts : Table String ServerScript) (command : Command) :
    CommandOutcome :=
  match command.start site with
  | .error e => { result := .error e.message, tree := site.tree }
  | .ok (.done report tree) => { result := .ok report, tree }
  | .ok (.talking manager stage) =>
    let t := CommandTrial.run maxSteps { trial := ({ manager } : ManagerTrial).adopt, stage, scripts }
    let result := match t.stage with
      | .ended report => .ok report
      | _ => .error "The command does not come to an end."
    { result, tree := site.tree, talk := some t }

end LanguageClient.Trial
