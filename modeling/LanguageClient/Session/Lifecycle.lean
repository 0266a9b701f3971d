import LanguageClient.Session.Basic
/-!
# Starting and stopping

The steps by which a session starts, stops, and notices that its connection has ended.

A start opens the transport, sends `initialize`, and when that succeeds makes the session running
and tells the server of the documents that are open, before any later event can be told.  A failed
handshake is tried again when somebody wants that.  A start that fails takes down what it has set up
and shows the failure, unless a question to the user has shown one already.
-/

namespace LanguageClient.Session

/-! ## Taking down -/

/-- One step of taking down what a session holds; none when it has to wait. -/
def stepTeardown (s : Session) : Teardown → Option (Session × Teardown)
  | .detaching =>
    match s.current with
    | none => some (s, .resetting)
    | some c =>
      some ({ s with current := none }.onConnection c (·.beginClose), .closing c .unwriting)
  | .closing c p =>
    match (s.connection c).stepClose p with
    | some (connection, .ended) => some (s.setConnection c connection, .resetting)
    | some (connection, p) => some (s.setConnection c connection, .closing c p)
    | none => if p = .ended then some (s, .resetting) else none
  | .resetting =>
    if s.syncOwner.isSome then none else some ({ s with sync := s.sync.reset }, .clearing)
  | .clearing => some ({ s with registry := s.registry.clear }, .forgetting)
  | .forgetting => some ({ s with capabilities := none }, .reaping)
  | .reaping => some ({ s with hasProcess := false }, .ended)
  | .ended => none

/-! ## Starting -/

/-- The action by which the user wants another try. -/
def retryAction : String := "Retry"

/-- The requests of a server that every session handles. -/
def requestMethods (files : FilesCapabilities) : List String :=
  ["client/registerCapability", "client/unregisterCapability", "workspace/configuration",
    "window/workDoneProgress/create", "window/showMessageRequest"]
    ++ (if files.servesListing then [FileService.listMethod] else [])
    ++ (if files.servesContents then [FileService.contentMethod] else [])

/-- The notifications of a server that every session handles. -/
def notificationMethods : List String :=
  ["textDocument/publishDiagnostics", "window/logMessage", "window/showMessage"]

/-- A new connection that is listened to. -/
def newConnection (s : Session) : Connection :=
  { name := s.name
    requestMethods := requestMethods s.options.files
    notificationMethods := notificationMethods
    listening := true
    readPhase := .reading }

/-- The number by which the client's process is known to servers. -/
def processId : UInt32 := 1

/-- Sends `initialize`. -/
def beginAttempt (now : Nat) (h : Host) (s : Session) (c attempt : Nat) : Session × StartPhase :=
  let s := { s with resolutions := s.resolutions + 1 }
  let params := InitializeParams.standard processId h.root s.options.files
    (s.options.initOptions.resolve s.resolutions)
  let (s, call) := s.beginCall now c { method := "initialize", params := some (toJson params) }
  (s, .initializing c attempt call)

def failStart (e : ClientError) : StartPhase :=
  .failing e .detaching

/-- What the policy decides next. -/
def nextDecision : List (Option Decision) → Option Decision × List (Option Decision)
  | [] => (some .fail, [])
  | reply :: rest => (reply, rest)

/-- What follows when `initialize` was answered, or failed. -/
def concludeAttempt (now : Nat) (h : Host) (s : Session) (c attempt : Nat)
    (result : Except ClientError Json) : Host × Session × StartPhase :=
  match (Call.decode result : Except ClientError InitializeResult) with
  | .ok result => (h, s, .recording c result)
  | .error e =>
    let failure := e.intoHandshake
    if (s.connection c).terminated ∨ s.state ≠ .starting then (h, s, failStart failure)
    else
      match s.options.policy with
      | some script =>
        let (reply, rest) := nextDecision script
        (h.askDecision s.name attempt failure,
          { s with options := { s.options with policy := some rest } },
          .deciding c attempt failure reply)
      | none =>
        match failure with
        | .handshake reason true =>
          let (reply, h) := h.prompt reason [retryAction]
          (h, { s with reported := true },
            .prompting c attempt failure (now + s.options.promptTimeout) reply)
        | _ => (h, s, failStart failure)

def finishStart (s : Session) : Session × StartPhase :=
  (s.unlockSync.unlockStart, .ended (.ok ()))

/-- Tells the server of the next document that it wants to know of. -/
def announceNext (s : Session) (c : Nat) : List Document → Session × StartPhase
  | [] => s.finishStart
  | d :: rest =>
    match s.sync.open d with
    | (some params, sync) => ({ s with sync }, .announcing c params rest)
    | (none, sync) => announceNext { s with sync } c rest

/-- One step of a start; none when it has to wait. -/
def stepStart (now : Nat) (h : Host) (s : Session) (me : Nat) (p : StartPhase) :
    Option (Host × Session × StartPhase) :=
  match p with
  | .locking =>
    if s.starter.isSome then none
    else
      match s.state with
      | .running => some (h, s, .ended (.ok ()))
      | .initial | .startFailed =>
        some (h, { s with state := .starting, starter := some me, reported := false }, .opening)
      | _ => some (h, s, .ended (.error s.invalidState))
  | .opening =>
    let (outcome, rest) := match s.connector with
      | [] => (s.connectorRest, [])
      | outcome :: rest => (outcome, rest)
    let s := { s with connector := rest }
    match outcome with
    | .opened => some (h, s, .holding)
    | .refused reason => some (h, s, failStart (.transport reason))
    | .hangs => some (h, s, .stuck)
  | .stuck => none
  | .holding =>
    let c := s.connections.length
    some (h, { s with
      hasProcess := s.transport.startsProcess
      connections := s.connections ++ [s.newConnection] }, .publishing c)
  | .publishing c =>
    let s := { s with current := some c }.spawn (.watch c .waiting)
    some (h, s.beginAttempt now h c 1)
  | .initializing c attempt call =>
    match call.result? with
    | some result => some (concludeAttempt now h s c attempt result)
    | none =>
      (s.stepCall now c call).map fun (s, call) =>
        match call.result? with
        | some result => concludeAttempt now h s c attempt result
        | none => (h, s, .initializing c attempt call)
  | .deciding c attempt failure reply =>
    if (s.connection c).terminated then some (h, s, failStart failure)
    else
      match reply with
      | none => none
      | some .fail => some (h, s, failStart failure)
      | some .retry => some (h, s.beginAttempt now h c (attempt + 1))
  | .prompting c attempt failure deadline reply =>
    if (s.connection c).terminated then some (h, s, failStart failure)
    else
      match reply with
      | .answered action =>
        if action = some retryAction then some (h, s.beginAttempt now h c (attempt + 1))
        else some (h, s, failStart failure)
      | .pending => if deadline ≤ now then some (h, s, failStart failure) else none
  | .recording c result =>
    some (h, { s with capabilities := some result.capabilities },
      .configuring c result.capabilities.syncKind)
  | .configuring c kind =>
    if s.syncOwner.isSome then none
    else
      let s := { s with sync := s.sync.configure kind }
      if s.state = .starting then
        some (h, { s with state := .running }.lockSync me, .greeting c kind)
      else some (h, s, failStart s.invalidState)
  | .greeting c kind =>
    if s.busy c then none
    else
      match s.notify c { method := "initialized", params := some (.obj []) } with
      | .error e => some (h, s.unlockSync, failStart e)
      | .ok s => if kind = .none then some (h, s.finishStart) else some (h, s, .listing c)
  | .listing c => some (h, s.announceNext c h.documents)
  | .announcing c params rest =>
    if s.busy c then none
    else
      match s.notify c (notice "textDocument/didOpen" params) with
      | .error e => some (h, s.unlockSync, failStart e)
      | .ok s => some (h, s.announceNext c rest)
  | .failing e t =>
    (s.stepTeardown t).map fun (s, t) =>
      match t with
      | .ended =>
        if s.state = .starting then
          let s := { s with state := .startFailed }
          if s.reported then (h, s.unlockStart, .ended (.error e))
          else (h, { s with reported := true }, .reporting e)
        else (h, s.unlockStart, .ended (.error e))
      | t => (h, s, .failing e t)
  | .reporting e =>
    some (h.showError (s.name ++ " language server failed to start: " ++ e.message),
      s.unlockStart, .ended (.error e))
  | .ended _ => none

/-! ## Stopping -/

/-- Asks the read loop of a connection to end. -/
def beginClosing (s : Session) (c : Nat) : Session × StopPhase :=
  (s.onConnection c (·.beginClose), .closing c .unwriting)

def stepStop (now : Nat) (s : Session) (p : StopPhase) : Option (Session × StopPhase) :=
  match p with
  | .entering =>
    match s.state with
    | .stopping | .stopped => some (s, .ended)
    | previous => some ({ s with state := .stopping }, .detaching previous)
  | .detaching previous => some ({ s with current := none }, .resetting previous s.current)
  | .resetting previous c =>
    if s.syncOwner.isSome then none
    else
      let s := { s with sync := s.sync.reset }
      match c with
      | none => some (s, .tearing .detaching)
      | some c =>
        if previous = .running then
          let (s, call) := s.beginCall now c { method := "shutdown", params := none }
          some (s, .asking c call)
        else some (s.beginClosing c)
  | .asking c call =>
    if call.result?.isSome then some (s, .exiting c)
    else
      (s.stepCall now c call).map fun (s, call) =>
        if call.result?.isSome then (s, .exiting c) else (s, .asking c call)
  | .exiting c =>
    if s.busy c then none
    else
      let s := s.onConnection c (·.tryWrite (.notification { method := "exit" }))
      some (s.beginClosing c)
  | .closing c p =>
    match (s.connection c).stepClose p with
    | some (connection, .ended) => some (s.setConnection c connection, .tearing .detaching)
    | some (connection, p) => some (s.setConnection c connection, .closing c p)
    | none => if p = .ended then some (s, .tearing .detaching) else none
  | .tearing t =>
    (s.stepTeardown t).map fun (s, t) =>
      match t with
      | .ended => ({ s with state := if s.state = .stopping then .stopped else s.state }, .ended)
      | t => (s, .tearing t)
  | .ended => none

/-! ## Watching -/

def stepWatch (h : Host) (s : Session) (c : Nat) (p : WatchPhase) :
    Option (Host × Session × WatchPhase) :=
  match p with
  | .waiting =>
    if (s.connection c).terminated then
      if s.state = .running then some (h, { s with state := .stopped }, .tearing .detaching)
      else some (h, s, .ended)
    else none
  | .tearing t =>
    (s.stepTeardown t).map fun (s, t) =>
      match t with
      | .ended => (h, s, .reporting)
      | t => (h, s, .tearing t)
  | .reporting =>
    some (h.showError (s.name ++ " language server terminated unexpectedly"), s, .ended)
  | .ended => none

end LanguageClient.Session
