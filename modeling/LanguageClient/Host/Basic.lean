import LanguageClient.Document.Language
import LanguageClient.Protocol.Diagnostic
import LanguageClient.Protocol.TextDocument
import LanguageClient.Table
import LanguageClient.Workspace.Walk
/-!
# The host

The editor as the client sees it: the documents that are open, the files of the workspace, and a
user who can be asked and told things.  The host keeps a record of what it was asked.

Documents stay in the order in which they were opened; opening one again changes it in its place.
-/

namespace LanguageClient

/-- How a question to the user is answered. -/
inductive PromptMode where
  /-- Always with the same action; none dismisses the question. -/
  | fixed (answer : Option String)
  /-- With the action that the next line names, in any case. -/
  | interactive (lines : List String)
  /-- Never. -/
  | never
  deriving DecidableEq, Repr, Inhabited

/-- What a user does with a question. -/
inductive PromptReply where
  | answered (action : Option String)
  | pending
  deriving DecidableEq, Repr, Inhabited

/-- Something that the host was asked or told. -/
inductive HostEvent where
  | prompt (message : String) (actions : List String)
  | showError (message : String)
  | diagnostics (server : String) (params : PublishDiagnosticsParams)
  /-- What to do after a failed handshake. -/
  | decision (server : String) (attempt : Nat) (failure : ClientError)
  deriving DecidableEq, Inhabited

/-- How important a line of the log is. -/
inductive LogLevel where
  | error
  | warn
  | info
  | debug
  deriving DecidableEq, Repr, Inhabited

/-- The editor. -/
structure Host where
  root : String
  tree : FileTree := {}
  walk : WalkOptions := {}
  /-- The ignore rules that the user has for all repositories. -/
  globalIgnore : OuterRules := {}
  documents : List Document := []
  /-- The diagnostics last published for each document. -/
  diagnostics : Table String (List Diagnostic) := []
  errors : List String := []
  /-- The answers to the next questions; after them the mode counts. -/
  answers : List (Option String) := []
  mode : PromptMode := .fixed none
  /-- Work on files never comes to an end. -/
  filesHang : Bool := false
  /-- What the host was asked, in order. -/
  asked : List HostEvent := []
  /-- What servers wanted to be logged, in order. -/
  log : List (LogLevel × String) := []
  deriving Inhabited

namespace Host

/-! ## Documents -/

def document? (h : Host) (uri : String) : Option Document :=
  h.documents.find? (·.uri == uri)

/-- Puts a document among the open ones, in the place of one with its URI. -/
def insertDocument (d : Document) : List Document → List Document
  | [] => [d]
  | e :: rest => if e.uri = d.uri then d :: rest else e :: insertDocument d rest

/-- Opens a document, or replaces one that is open. -/
def «open» (h : Host) (d : Document) : Host :=
  { h with documents := insertDocument d h.documents }

/-- The document that an edit makes of another. -/
def edited (d : Document) (text : String) : Document :=
  { d with version := d.version + 1, text }

/-- Replaces the text of an open document. -/
def edit (h : Host) (uri text : String) : Option (DocumentChange × Host) := do
  let d ← h.document? uri
  let d := edited d text
  return ({ uri := d.uri, version := d.version, changes := [.full d.text], text := d.text },
    { h with documents := insertDocument d h.documents })

/-- Closes a document; tells whether it was open. -/
def close (h : Host) (uri : String) : Bool × Host :=
  ((h.document? uri).isSome, { h with documents := h.documents.filter (·.uri ≠ uri) })

/-- The language of an open document; a document that is not open has none. -/
def languageOf (h : Host) (uri : String) : String :=
  ((h.document? uri).map (·.languageId)).getD ""

/-! ## Files -/

/-- The content of a file as text. -/
def fileText (h : Host) (path : String) : Except ClientError String :=
  ((h.tree.read path).map Utf8.lossyString).mapError .system

/-- All files below a directory. -/
def listFiles (h : Host) (base : String) (fired : Nat → Bool) :
    Except ClientError (List String) :=
  Workspace.listFiles h.tree h.globalIgnore h.root base h.walk fired

/-- Opens a file at its first version. -/
def openFile (h : Host) (path : String) : Except ClientError (Document × Host) := do
  let path := Path.join h.root path
  let text ← h.fileText path
  let d : Document :=
    { uri := Uri.ofPath path, languageId := languageOfPath path, version := 1, text }
  return (d, h.open d)

/-! ## The user -/

/-- The action that a line names. -/
def actionOf (line : String) (actions : List String) : Option String :=
  actions.find? fun action => Text.sameIgnoringAsciiCase action (Text.trim line)

/-- Asks the user to choose an action. -/
def prompt (h : Host) (message : String) (actions : List String) : PromptReply × Host :=
  let h := { h with asked := h.asked ++ [HostEvent.prompt message actions] }
  match h.answers with
  | answer :: rest => (.answered answer, { h with answers := rest })
  | [] =>
    match h.mode with
    | .fixed answer => (.answered answer, h)
    | .never => (.pending, h)
    | .interactive [] => (.answered (actionOf "" actions), h)
    | .interactive (line :: lines) =>
      (.answered (actionOf line actions), { h with mode := .interactive lines })

def showError (h : Host) (message : String) : Host :=
  { h with errors := h.errors ++ [message], asked := h.asked ++ [HostEvent.showError message] }

/-- Takes what a server says about a document. -/
def publish (h : Host) (server : String) (params : PublishDiagnosticsParams) : Host :=
  { h with
    diagnostics := h.diagnostics.put params.uri params.diagnostics
    asked := h.asked ++ [HostEvent.diagnostics server params] }

/-- Records that the host was asked what to do after a failed handshake. -/
def askDecision (h : Host) (server : String) (attempt : Nat) (failure : ClientError) : Host :=
  { h with asked := h.asked ++ [HostEvent.decision server attempt failure] }

def addLog (h : Host) (level : LogLevel) (text : String) : Host :=
  { h with log := h.log ++ [(level, text)] }

end Host

end LanguageClient
