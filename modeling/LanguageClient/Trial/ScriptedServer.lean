import LanguageClient.Table
import LanguageClient.Wire.Frame
/-!
# Servers that follow a script

A scripted server answers every request with what its script has ready for the method, and may write
further messages before an answer or after a notification.  It goes away without an answer when it is
told to exit, and when a method comes at which its script ends.
-/

namespace LanguageClient.Trial

/-- What a scripted server says. -/
structure ServerScript where
  /-- The answers to the requests of a method: objects with a member `result` or `error`, used in
      turn, the last one again and again. -/
  answers : Table String (List Json) := []
  /-- What is written before an answer. -/
  before : Table String (List Json) := []
  /-- What is written after a notification. -/
  after : Table String (List Json) := []
  /-- The method at which the script ends. -/
  closeOn : Option String := none
  deriving Inhabited

/-- A server that follows a script. -/
structure ScriptedServer where
  script : ServerScript := {}
  /-- How many messages of the client it has read. -/
  seen : Nat := 0
  /-- How often it has answered each method. -/
  answered : Table String Nat := []
  gone : Bool := false
  deriving Inhabited

namespace ServerScript

/-- Reads what a script has for each method: a list, or a single thing. -/
def readLists (v : Json) (key : String) : Table String (List Json) :=
  match v.get? key with
  | some (.obj members) => members.map fun (method, v) => (method, v.items?.getD [v])
  | _ => []

/-- Reads a script. -/
def ofJson (v : Json) : ServerScript :=
  { answers := readLists v "responses", before := readLists v "before", after := readLists v "on"
    closeOn := (v.get? "closeOn").bind Json.text? }

/-- The method by which a server is told to exit. -/
def exitMethod : String := "exit"

/-- What is answered where the script has nothing. -/
def standardAnswer : String → Json
  | "initialize" =>
    .object [("result", .object [("capabilities", .object [("textDocumentSync", .int 1)])])]
  | "shutdown" => .object [("result", .null)]
  | _ => .object [("error", .object [("code", .int (-32601)), ("message", .str "unhandled")])]

/-- The answer to a request whose method was answered `n` times before. -/
def answer (s : ServerScript) (method : String) (n : Nat) : Json :=
  match (s.answers.get? method).getD [] with
  | [] => standardAnswer method
  | answers => (answers[n]?.or answers.getLast?).getD .null

/-- Whether the server goes away at a method. -/
def endsAt (s : ServerScript) (method : String) : Bool :=
  s.closeOn == some method || method == exitMethod

end ServerScript

namespace ScriptedServer

/-- The members of an answer that a response takes over. -/
def outcomeMembers (answer : Json) : List (String × Json) :=
  ["result", "error"].filterMap fun name => (answer.get? name).map fun v => (name, v)

/-- Reads a message and tells what is written in turn. -/
def receive (s : ScriptedServer) (m : Message) : List Json × ScriptedServer :=
  let s := { s with seen := s.seen + 1 }
  match m with
  | .request r =>
    if s.script.endsAt r.method then ([], { s with gone := true })
    else
      let n := (s.answered.get? r.method).getD 0
      let response := Json.object ([("jsonrpc", .str "2.0"), ("id", toJson r.id)]
        ++ outcomeMembers (s.script.answer r.method n))
      ((s.script.before.get? r.method).getD [] ++ [response],
        { s with answered := s.answered.put r.method (n + 1) })
  | .notification n =>
    if s.script.endsAt n.method then ([], { s with gone := true })
    else ((s.script.after.get? n.method).getD [], s)
  | .response _ => ([], s)

/-- Reads messages until there are no more or the server goes away; tells what was written and what
    was read. -/
def receiveAll (s : ScriptedServer) : List Message → List Json × List Message × ScriptedServer
  | [] => ([], [], s)
  | m :: rest =>
    if s.gone then ([], [], s)
    else
      let (written, s) := s.receive m
      let (more, read, s) := receiveAll s rest
      (written ++ more, m :: read, s)

end ScriptedServer

end LanguageClient.Trial
