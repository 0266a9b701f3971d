import LanguageClient.Connection.Call
import LanguageClient.Document.Sync
import LanguageClient.Host.Files
import LanguageClient.Registry
import LanguageClient.Settings.Server
/-!
# Sessions

A session is the client's side of one server: it opens a transport, runs the handshake, and passes
the events of the editor on while it is running.

Many tasks work on a session at the same time.  A task may be interrupted only where it waits, and
the phases below name these points; `Session` holds what the tasks share and where each of them
stands.  Two locks are held over several steps: `starter` by the task that starts the session, and
`syncOwner` by the task that tells the server of documents.
-/

namespace LanguageClient

/-! ## The state of a session -/

/-- Where a session stands in its life. -/
inductive SessionState where
  | initial
  | starting
  | running
  | startFailed
  | stopping
  | stopped
  deriving DecidableEq, Repr, Inhabited

namespace SessionState

def text : SessionState → String
  | initial => "initial"
  | starting => "starting"
  | running => "running"
  | startFailed => "start-failed"
  | stopping => "stopping"
  | stopped => "stopped"

end SessionState

/-! ## Options -/

/-- What a failed handshake leads to. -/
inductive Decision where
  | retry
  | fail
  deriving DecidableEq, Repr, Inhabited

/-- The options that a server gets in the handshake. -/
inductive InitOptions where
  | none
  | fixed (v : Json)
  /-- Worked out anew for every attempt, from how many there were. -/
  | computed (f : Nat → Option Json)
  deriving Inhabited

namespace InitOptions

/-- The options for the attempt with a given number, counted from one. -/
def resolve (attempt : Nat) : InitOptions → Option Json
  | none => Option.none
  | fixed v => some v
  | computed f => f attempt

end InitOptions

/-- What an attempt to open the transport comes to. -/
inductive ConnectOutcome where
  | opened
  | refused (reason : String)
  /-- The attempt never ends. -/
  | hangs
  deriving DecidableEq, Repr, Inhabited

/-- How a session is to behave. -/
structure SessionOptions where
  files : FilesCapabilities := { listing := some true, contents := some true }
  initOptions : InitOptions := .none
  /-- What is decided after each failed handshake, where somebody decides instead of the user: in
      turn, and to fail when there is no more.  An entry without decision never comes. -/
  policy : Option (List (Option Decision)) := none
  /-- How long a change of a whole text waits for a later one, in milliseconds. -/
  syncDelay : Nat := 100
  /-- How long a question to the user stays open, in milliseconds. -/
  promptTimeout : Nat := 60000
  deriving Inhabited

namespace SessionOptions

/-- The options for a server by the settings. -/
def ofSettings (server : ServerConfig) (files : FilesSettings) : SessionOptions :=
  { files := { listing := some files.listing, contents := some files.contents }
    initOptions :=
      match server.initializationOptions with
      | some v => .fixed v
      | none => .none }

end SessionOptions

/-! ## Phases

A phase has its name from what the task does next, or waits for: the lock on the documents in `locking`,
`resetting` and `configuring`, the slot of the connection in `detaching` and `looking`, the slot of the
capabilities in `recording`, `checking` and `forgetting`, the host's document in `naming`, the registry in
`matching` and `clearing`, and the writer in `greeting`, `announcing`, `flushing`, `writing` and
`exiting`. -/

/-- Where the end of what a session holds stands. -/
inductive Teardown where
  | detaching
  | closing (c : Nat) (p : Closing)
  | resetting
  | clearing
  | forgetting
  | reaping
  | ended
  deriving DecidableEq, Inhabited

/-- Where a start stands. -/
inductive StartPhase where
  /-- Another start is waited for. -/
  | locking
  | opening
  /-- The transport never opens. -/
  | stuck
  /-- The transport is open; the slot of the server's process is waited for. -/
  | holding
  /-- The connection is there; its slot is waited for. -/
  | publishing (c : Nat)
  | initializing (c attempt : Nat) (call : Call)
  /-- Somebody decides what a failed handshake leads to; `reply` is what will be decided. -/
  | deciding (c attempt : Nat) (failure : ClientError) (reply : Option Decision)
  /-- The user is asked what a failed handshake leads to. -/
  | prompting (c attempt : Nat) (failure : ClientError) (deadline : Nat) (reply : PromptReply)
  | recording (c : Nat) (result : InitializeResult)
  | configuring (c : Nat) (kind : SyncKind)
  | greeting (c : Nat) (kind : SyncKind)
  | listing (c : Nat)
  | announcing (c : Nat) (params : DidOpenParams) (rest : List Document)
  | failing (e : ClientError) (t : Teardown)
  | reporting (e : ClientError)
  | ended (result : Except ClientError Unit)
  deriving Inhabited

/-- Where a stop stands. -/
inductive StopPhase where
  | entering
  | detaching (previous : SessionState)
  | resetting (previous : SessionState) (c : Option Nat)
  | asking (c : Nat) (call : Call)
  | exiting (c : Nat)
  | closing (c : Nat) (p : Closing)
  | tearing (t : Teardown)
  | ended
  deriving Inhabited

/-- Where the watch over a connection stands. -/
inductive WatchPhase where
  | waiting
  | tearing (t : Teardown)
  | reporting
  | ended
  deriving DecidableEq, Inhabited

/-- Where an event of the editor stands. -/
inductive EventPhase where
  | locking
  | looking
  | checking (c : Nat)
  | naming (c : Nat)
  | matching (c : Nat) (language : String)
  | flushing (c : Nat) (params : DidChangeParams)
  | writing (c : Nat) (n : Notification)
  | ended (result : Except ClientError Unit)
  deriving Inhabited

/-- Where the delivery of a staged change stands. -/
inductive DeliveryPhase where
  | waiting
  | locking
  | looking (params : DidChangeParams)
  | writing (c : Nat) (params : DidChangeParams)
  | ended
  deriving DecidableEq, Inhabited

/-- A question for edits of a document. -/
inductive EditQuery where
  | beforeSave (uri : String) (reason : SaveReason)
  | layout (uri : String) (options : FormattingOptions)
  deriving DecidableEq, Inhabited

namespace EditQuery

def uri : EditQuery → String
  | beforeSave uri _ => uri
  | layout uri _ => uri

def method : EditQuery → String
  | beforeSave .. => "textDocument/willSaveWaitUntil"
  | layout .. => "textDocument/formatting"

def params : EditQuery → Json
  | beforeSave uri reason => toJson ({ textDocument := ⟨uri⟩, reason } : WillSaveParams)
  | layout uri options => toJson ({ textDocument := ⟨uri⟩, options } : DocumentFormattingParams)

/-- Whether the capabilities say that the server answers the question. -/
def advertised (c : ServerCapabilities) : EditQuery → Bool
  | beforeSave .. => c.willSaveWaitUntil
  | layout .. => c.formatting

end EditQuery

/-- Where a question for edits stands. -/
inductive QueryPhase where
  | entering
  | locking
  | looking
  | checking (c : Option Nat)
  | naming (c : Option Nat)
  | matching (c : Option Nat) (language : String)
  | flushing (c : Nat) (params : DidChangeParams)
  | calling (c : Nat) (call : Call)
  /-- The edits; none when the server is not asked about layouts. -/
  | ended (result : Except ClientError (Option (List TextEdit)))
  deriving Inhabited

/-- Where a request of the user stands. -/
inductive RequestPhase where
  | entering
  | looking
  | calling (c : Nat) (call : Call)
  | ended (result : Except ClientError Json)
  deriving Inhabited

/-- Where the handler of a request of the server stands, once it has begun. -/
inductive HandlerPhase where
  | registering (registrations : List Registration)
  | unregistering (unregistrations : List Unregistration)
  | prompting (reply : PromptReply)
  | listing (base : String)
  | looking (uri : String)
  | reading (uri path : String)
  deriving DecidableEq, Inhabited

/-- A task of a session. -/
inductive Task where
  | start (p : StartPhase)
  | stop (p : StopPhase)
  | watch (c : Nat) (p : WatchPhase)
  | event (e : DocumentEvent) (p : EventPhase)
  | delivery (uri : String) (generation deadline : Nat) (p : DeliveryPhase)
  | query (q : EditQuery) (p : QueryPhase)
  /-- A request; `cancelled` says that its token has fired. -/
  | request (method : String) (params : Option Json) (cancelled : Bool) (p : RequestPhase)
  deriving Inhabited

/-! ## Sessions -/

/-- The client's side of a server. -/
structure Session where
  name : String
  transport : ServerTransport := default
  options : SessionOptions := {}
  /-- What the next attempts to open the transport come to. -/
  connector : List ConnectOutcome := []
  /-- What all further attempts come to. -/
  connectorRest : ConnectOutcome := .opened
  state : SessionState := .initial
  /-- The task that holds the lock on starting. -/
  starter : Option Nat := none
  /-- All connections that were ever opened, in order. -/
  connections : List Connection := []
  current : Option Nat := none
  hasProcess : Bool := false
  capabilities : Option ServerCapabilities := none
  registry : CapabilityRegistry := {}
  sync : DocumentSync
  /-- The task that holds the lock on the documents. -/
  syncOwner : Option Nat := none
  /-- The diagnostics last published for each document. -/
  diagnostics : Table String (List Diagnostic) := []
  /-- The failure of this start has been shown to the user. -/
  reported : Bool := false
  /-- How often the options for the handshake were worked out. -/
  resolutions : Nat := 0
  tasks : List Task := []
  /-- The handlers of requests that have begun, by connection and job. -/
  handlers : Table (Nat × Nat) HandlerPhase := []
  /-- The diagnostics that the read loop of a connection is about to pass on to the host. -/
  passing : Table Nat PublishDiagnosticsParams := []
  deriving Inhabited

namespace Session

/-- The session for a configured server, before anything has happened. -/
def ofConfig (server : ServerConfig) (options : SessionOptions) : Session :=
  { name := server.name, transport := server.transport, options, sync := .new server.selector }

/-- The error for something that the state does not allow. -/
def invalidState (s : Session) : ClientError :=
  .invalidState s.name s.state.text

def connection (s : Session) (c : Nat) : Connection :=
  s.connections[c]?.getD { name := s.name }

def setConnection (s : Session) (c : Nat) (connection : Connection) : Session :=
  { s with connections := s.connections.set c connection }

def onConnection (s : Session) (c : Nat) (f : Connection → Connection) : Session :=
  s.setConnection c (f (s.connection c))

/-- Whether the writer of a connection has to be waited for. -/
def busy (s : Session) (c : Nat) : Bool :=
  (s.connection c).busy

def notify (s : Session) (c : Nat) (n : Notification) : Except ClientError Session :=
  ((s.connection c).write (.notification n)).map (s.setConnection c)

/-- A notification with the parameters of a type. -/
def notice {α : Type} [Payload α] (method : String) (params : α) : Notification :=
  { method, params := some (toJson params) }

def setTask (s : Session) (t : Nat) (task : Task) : Session :=
  { s with tasks := s.tasks.set t task }

def spawn (s : Session) (task : Task) : Session :=
  { s with tasks := s.tasks ++ [task] }

def lockSync (s : Session) (me : Nat) : Session :=
  { s with syncOwner := some me }

def unlockSync (s : Session) : Session :=
  { s with syncOwner := none }

def unlockStart (s : Session) : Session :=
  { s with starter := none }

/-- Runs a call one step; none when it has to wait. -/
def stepCall (now : Nat) (s : Session) (c : Nat) (call : Call) : Option (Session × Call) :=
  (call.step now (s.connection c)).map fun (connection, call) =>
    (s.setConnection c connection, call)

def beginCall (now : Nat) (s : Session) (c : Nat) (call : Call) : Session × Call :=
  (s.stepCall now c call).getD (s, call)

/-- Whether the server answers a question or wants a notice, by what it said in the handshake. -/
def advertises (s : Session) (test : ServerCapabilities → Bool) : Bool :=
  s.capabilities.any test

end Session

end LanguageClient
