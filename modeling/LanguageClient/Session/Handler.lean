import LanguageClient.Session.Basic
/-!
# Serving the server

What a session does with the requests and notifications of its server.

Requests are handled beside one another, each in a job of its connection; a handler that waits stands
in `Session.handlers`.  Notifications are handled by the read loop itself, one after another.  Work on
files goes on beside all tasks: a handler that waits for it stops when its request is cancelled,
and `finishFiles` hands it the outcome otherwise, in whatever order the work comes to its end.
-/

namespace LanguageClient.Session

/-! ## Requests -/

/-- The parameters of a request or notification as a value of a type; absent ones count as
    `null`. -/
def readParams {α : Type} [Payload α] (params : Option Json) : Except ClientError α :=
  (ofJson (params.getD .null) : Decoded α).mapError fun e => .protocol e.message

/-- The parameters of a request for files; absent ones have their standard values. -/
def readFilesParams : Option Json → Except ClientError FilesParams
  | none | some .null => .ok {}
  | params => readParams params

def readQuestion (params : Option Json) : String × List String :=
  let v := params.getD .null
  let actions := ((v.get? "actions").bind Json.items?).getD []
  (((v.get? "message").bind Json.text?).getD "",
    actions.filterMap fun action => (action.get? "title").bind Json.text?)

/-- The answer to a question about the client's settings: nothing is set for any of the items. -/
def emptySettings (params : Option Json) : Json :=
  let items := ((params.bind (·.get? "items")).bind Json.items?).getD []
  .arr (items.map fun _ => .obj [])

/-- The answer to a question to the user. -/
def chosen : Option String → Json
  | some title => .object [("title", .str title)]
  | none => .null

/-- A handler ends. -/
def finishHandler (s : Session) (c j : Nat) (outcome : HandlerOutcome) : Session :=
  { s with handlers := s.handlers.erase (c, j) }.onConnection c (·.finishJob j outcome)

def settleHandler (s : Session) (c j : Nat) : Except ClientError Json → Session
  | .ok v => s.finishHandler c j (.value v)
  | .error e => s.finishHandler c j (.failed e)

/-- A handler waits. -/
def parkHandler (s : Session) (c j : Nat) (p : HandlerPhase) : Session :=
  { s with handlers := s.handlers.put (c, j) p }

/-- Goes on with parameters that could be read, or fails. -/
def withParams {α : Type} (s : Session) (c j : Nat) (params : Except ClientError α)
    (go : α → Session) : Session :=
  match params with
  | .ok params => go params
  | .error e => s.finishHandler c j (.failed e)

/-- Begins to list files. -/
def beginListing (h : Host) (s : Session) (c j : Nat) (params : Option Json) : Session :=
  if s.state ≠ .running then s.finishHandler c j (.failed s.invalidState)
  else
    s.withParams c j (readFilesParams params) fun params =>
      let base := FileService.baseOf h params
      if h.filesHang ∨ h.tree.isDir base then s.parkHandler c j (.listing base)
      else s.finishHandler c j (.failed (Workspace.noDirectory base))

/-- Begins to look for the content of a document. -/
def beginContent (s : Session) (c j : Nat) (params : Option Json) : Session :=
  if s.state ≠ .running then s.finishHandler c j (.failed s.invalidState)
  else
    s.withParams c j (readParams params : Except ClientError ContentParams) fun params =>
      s.parkHandler c j (.looking params.textDocument.uri)

def beginHandler (h : Host) (s : Session) (c j : Nat) (r : Request) : Host × Session :=
  match r.method with
  | "client/registerCapability" =>
    (h, s.withParams c j (readParams r.params : Except ClientError RegistrationParams) fun params =>
      s.parkHandler c j (.registering params.registrations))
  | "client/unregisterCapability" =>
    (h, s.withParams c j (readParams r.params : Except ClientError UnregistrationParams)
      fun params => s.parkHandler c j (.unregistering params.unregistrations))
  | "workspace/configuration" => (h, s.finishHandler c j (.value (emptySettings r.params)))
  | "window/showMessageRequest" =>
    let (message, actions) := readQuestion r.params
    let (reply, h) := h.prompt message actions
    (h, s.parkHandler c j (.prompting reply))
  | "workspace/xfiles" => (h, s.beginListing h c j r.params)
  | "textDocument/xcontent" => (h, s.beginContent c j r.params)
  | _ => (h, s.finishHandler c j (.value .null))

/-- Goes on with a request that is handled; none when it has to wait. -/
def continueHandler (h : Host) (s : Session) (c j : Nat) (cancelled : Bool) :
    HandlerPhase → Option Session
  | .registering registrations =>
    some ({ s with registry := s.registry.register registrations }.finishHandler c j (.value .null))
  | .unregistering unregistrations =>
    some ({ s with registry := s.registry.unregister unregistrations }.finishHandler c j
      (.value .null))
  | .prompting (.answered action) => some (s.finishHandler c j (.value (chosen action)))
  | .prompting .pending => none
  | .listing _ => if cancelled then some (s.finishHandler c j (.failed .cancelled)) else none
  | .looking uri =>
    match FileService.source h uri with
    | .error e => some (s.finishHandler c j (.failed e))
    | .ok (.opened d) => some (s.finishHandler c j (.value (toJson (TextDocumentItem.ofDocument d))))
    | .ok (.disk path) => some (s.parkHandler c j (.reading uri path))
  | .reading .. => if cancelled then some (s.finishHandler c j (.failed .cancelled)) else none

/-- One step of the handler of a job; none when it has to wait. -/
def stepHandler (h : Host) (s : Session) (c j : Nat) : Option (Host × Session) := do
  let connection := s.connection c
  let job ← connection.jobs[j]?
  guard (job.phase = .running)
  match s.handlers.get? (c, j) with
  | none => return s.beginHandler h c j job.request
  | some p => return (h, ← s.continueHandler h c j (connection.jobCancelled job) p)

/-- The work on files that the handler of a job waits for is done; none when it does not wait for
    any. -/
def finishFiles (h : Host) (s : Session) (c j : Nat) : Option Session :=
  if h.filesHang then none
  else
    match s.handlers.get? (c, j) with
    | some (.listing base) =>
      some (s.settleHandler c j
        ((h.listFiles base fun _ => false).map fun paths => toJson (FileService.listing paths)))
    | some (.reading uri path) =>
      some (s.settleHandler c j ((FileService.diskItem h uri path).map toJson))
    | _ => none

/-! ## Notifications -/

/-- How important a message of a given kind is. -/
def levelOf (kind : UInt8) : LogLevel :=
  match kind.toNat with
  | 1 => .error
  | 2 => .warn
  | 3 => .info
  | _ => .debug

/-- Puts a message of the server into the log. -/
def logMessage (h : Host) (s : Session) (params : Option Json) : Host :=
  match (readParams params : Except ClientError LogMessageParams) with
  | .ok m => h.addLog (levelOf m.kind) ("LSP " ++ s.name ++ ": " ++ m.message)
  | .error _ => h

/-- One step of the handler of a notification.  Diagnostics are kept by the session and then passed
    on to the host. -/
def stepNotification (h : Host) (s : Session) (c : Nat) (n : Notification) : Host × Session :=
  match n.method with
  | "textDocument/publishDiagnostics" =>
    match s.passing.get? c with
    | some params =>
      (h.publish s.name params,
        { s with passing := s.passing.erase c }.onConnection c (·.finishHandling))
    | none =>
      match (readParams n.params : Except ClientError PublishDiagnosticsParams) with
      | .ok params =>
        (h, { s with
          diagnostics := s.diagnostics.put params.uri params.diagnostics
          passing := s.passing.put c params })
      | .error _ => (h, s.onConnection c (·.finishHandling))
  | "window/logMessage" | "window/showMessage" =>
    (s.logMessage h n.params, s.onConnection c (·.finishHandling))
  | _ => (h, s.onConnection c (·.finishHandling))

/-- One step of the read loop of a connection and of the handlers that run in it; none when it has to
    wait. -/
def stepReader (h : Host) (s : Session) (c : Nat) : Option (Host × Session) :=
  let connection := s.connection c
  match connection.readPhase with
  | .handling n => some (s.stepNotification h c n)
  | _ => connection.stepRead.map fun connection => (h, s.setConnection c connection)

end LanguageClient.Session
