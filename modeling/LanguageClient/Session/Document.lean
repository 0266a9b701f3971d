import LanguageClient.Session.Basic
/-!
# Telling of documents

The steps by which a session passes on what happens to documents, and asks about them.

All that is told of a document is told under the lock on the documents.  A change of a whole text is
staged for a while, so a later change may take its place; whatever else is said about the document
lets the staged change go ahead first.
-/

namespace LanguageClient.Session

/-! ## Events -/

/-- An event has been dealt with. -/
def finishEvent (s : Session) (result : Except ClientError Unit) : Session × EventPhase :=
  (s.unlockSync, .ended result)

/-- Goes on to write what the server has to be told, if anything. -/
def tell {α : Type} [Payload α] (s : Session) (c : Nat) (method : String) :
    Option α → Session × EventPhase
  | some params => (s, .writing c (notice method params))
  | none => s.finishEvent (.ok ())

/-- Stages a change: a task of its own delivers it after the delay. -/
def stage (now : Nat) (s : Session) (uri : String) (generation : Nat) : Session :=
  s.spawn (.delivery uri generation (now + s.options.syncDelay) .waiting)

/-- What follows when the connection for an event is known. -/
def beginEvent (now : Nat) (s : Session) (c : Nat) : DocumentEvent → Session × EventPhase
  | .opened d =>
    let (params, sync) := s.sync.open d
    { s with sync }.tell c "textDocument/didOpen" params
  | .changed change =>
    match s.sync.change change with
    | .error e => s.finishEvent (.error e)
    | .ok (.ignore, sync) => { s with sync }.finishEvent (.ok ())
    | .ok (.send params, sync) => { s with sync }.tell c "textDocument/didChange" (some params)
    | .ok (.staged generation, sync) =>
      ({ s with sync }.stage now change.uri generation).finishEvent (.ok ())
  | .willSave uri _ =>
    if s.sync.isAnnounced uri then (s, .checking c) else s.finishEvent (.ok ())
  | .saved uri _ =>
    if s.sync.isAnnounced uri then
      match s.sync.flush uri with
      | (some params, sync) => ({ s with sync }, .flushing c params)
      | (none, sync) => ({ s with sync }, .checking c)
    else s.finishEvent (.ok ())
  | .closed uri =>
    let (params, sync) := s.sync.close uri
    { s with sync }.tell c "textDocument/didClose" params

def willSaveNotice (uri : String) (reason : SaveReason) : Notification :=
  notice "textDocument/willSave" ({ textDocument := ⟨uri⟩, reason } : WillSaveParams)

/-- Tells of a save, with the given text. -/
def tellSaved (s : Session) (c : Nat) (uri : String) (text : Option String) :
    Session × EventPhase :=
  s.tell c "textDocument/didSave" (s.sync.save uri text)

/-- What follows when the capabilities are at hand. -/
def checkEvent (s : Session) (c : Nat) : DocumentEvent → Session × EventPhase
  | .willSave uri reason =>
    if s.advertises (·.willSave) then
      match s.sync.flush uri with
      | (some params, sync) => ({ s with sync }, .flushing c params)
      | (none, sync) => ({ s with sync }, .writing c (willSaveNotice uri reason))
    else (s, .naming c)
  | .saved uri text =>
    let (enabled, withText) := (s.capabilities.map (·.save)).getD (false, false)
    if !enabled then s.finishEvent (.ok ())
    else if !withText then s.tellSaved c uri none
    else
      match text with
      | some text => s.tellSaved c uri (some text)
      | none => (s, .naming c)
  | _ => s.finishEvent (.ok ())

/-- What follows when the host's document is at hand. -/
def nameEvent (h : Host) (s : Session) (c : Nat) : DocumentEvent → Session × EventPhase
  | .willSave uri _ => (s, .matching c (h.languageOf uri))
  | .saved uri _ => s.tellSaved c uri ((h.document? uri).map (·.text))
  | _ => s.finishEvent (.ok ())

/-- What follows when the registry is at hand. -/
def matchEvent (s : Session) (c : Nat) (language : String) : DocumentEvent → Session × EventPhase
  | .willSave uri reason =>
    if s.registry.covers "textDocument/willSave" language uri then
      match s.sync.flush uri with
      | (some params, sync) => ({ s with sync }, .flushing c params)
      | (none, sync) => ({ s with sync }, .writing c (willSaveNotice uri reason))
    else s.finishEvent (.ok ())
  | _ => s.finishEvent (.ok ())

/-- What follows when a staged change has gone ahead. -/
def afterFlush (s : Session) (c : Nat) : DocumentEvent → Session × EventPhase
  | .willSave uri reason => (s, .writing c (willSaveNotice uri reason))
  | .saved .. => (s, .checking c)
  | _ => s.finishEvent (.ok ())

/-- One step of an event; none when it has to wait. -/
def stepEvent (now : Nat) (h : Host) (s : Session) (me : Nat) (e : DocumentEvent) (p : EventPhase) :
    Option (Session × EventPhase) :=
  match p with
  | .locking =>
    if s.syncOwner.isSome then none
    else if s.state = .running then some (s.lockSync me, .looking)
    else some (s, .ended (.ok ()))
  | .looking =>
    match s.current with
    | none => some (s.finishEvent (.ok ()))
    | some c => some (s.beginEvent now c e)
  | .checking c => some (s.checkEvent c e)
  | .naming c => some (s.nameEvent h c e)
  | .matching c language => some (s.matchEvent c language e)
  | .flushing c params =>
    if s.busy c then none
    else
      match s.notify c (notice "textDocument/didChange" params) with
      | .error error => some (s.finishEvent (.error error))
      | .ok s => some (s.afterFlush c e)
  | .writing c n =>
    if s.busy c then none
    else
      match s.notify c n with
      | .error error => some (s.finishEvent (.error error))
      | .ok s => some (s.finishEvent (.ok ()))
  | .ended _ => none

/-! ## Staged changes -/

def stepDelivery (now : Nat) (s : Session) (me : Nat) (uri : String) (generation deadline : Nat)
    (p : DeliveryPhase) : Option (Session × DeliveryPhase) :=
  match p with
  | .waiting =>
    if s.sync.lapsed.contains generation then some (s, .ended)
    else if deadline ≤ now then some (s, .locking)
    else none
  | .locking =>
    if s.syncOwner.isSome then none
    else
      match s.sync.takeStaged uri generation with
      | (none, sync) => some ({ s with sync }, .ended)
      | (some params, sync) =>
        let s := { s with sync }
        if s.state = .running then some (s.lockSync me, .looking params) else some (s, .ended)
  | .looking params =>
    match s.current with
    | none => some (s.unlockSync, .ended)
    | some c => some (s, .writing c params)
  | .writing c params =>
    let message := Message.notification (notice "textDocument/didChange" params)
    if s.busy c then none
    else some ((s.onConnection c (·.tryWrite message)).unlockSync, .ended)
  | .ended => none

/-! ## Questions for edits -/

/-- A question has been dealt with under the lock. -/
def finishQuery (s : Session) (result : Except ClientError (Option (List TextEdit))) :
    Session × QueryPhase :=
  (s.unlockSync, .ended result)

/-- Nothing is left to be told first: gives the lock back and asks. -/
def ask (now : Nat) (s : Session) (c : Nat) (q : EditQuery) : Session × QueryPhase :=
  let call : Call := { method := q.method, params := some q.params }
  let (s, call) := s.unlockSync.beginCall now c call
  (s, .calling c call)

/-- Asks, but lets a staged change of the document go ahead. -/
def flushAndAsk (now : Nat) (s : Session) (c : Nat) (q : EditQuery) : Session × QueryPhase :=
  match s.sync.flush q.uri with
  | (some params, sync) => ({ s with sync }, .flushing c params)
  | (none, sync) => { s with sync }.ask now c q

/-- What follows when the server answers the question.  Before a save the lock is held already. -/
def goAhead (now : Nat) (s : Session) (q : EditQuery) : Option Nat → Session × QueryPhase
  | some c => s.flushAndAsk now c q
  | none => (s, .locking)

/-- What follows when the server does not answer the question. -/
def giveUp (s : Session) (q : EditQuery) : Session × QueryPhase :=
  match q with
  | .beforeSave .. => s.finishQuery (.ok (some []))
  | .layout .. => (s, .ended (.ok none))

/-- The edits of an answer; `null` stands for none. -/
def editsOf (result : Except ClientError Json) : Except ClientError (Option (List TextEdit)) :=
  (Call.decode result : Except ClientError (Option (List TextEdit))).map fun edits =>
    some (edits.getD [])

def stepQuery (now : Nat) (h : Host) (s : Session) (me : Nat) (q : EditQuery) (p : QueryPhase) :
    Option (Session × QueryPhase) :=
  match p with
  | .entering =>
    match q with
    | .beforeSave .. => some (s, .locking)
    | .layout .. =>
      if s.state = .running then some (s, .checking none)
      else some (s, .ended (.error s.invalidState))
  | .locking =>
    if s.syncOwner.isSome then none
    else if s.state = .running then some (s.lockSync me, .looking)
    else
      match q with
      | .beforeSave .. => some (s, .ended (.ok (some [])))
      | .layout .. => some (s, .ended (.error s.invalidState))
  | .looking =>
    match q, s.current with
    | .beforeSave uri _, some c =>
      if s.sync.isAnnounced uri then some (s, .checking (some c)) else some (s.giveUp q)
    | .beforeSave .., none => some (s.giveUp q)
    | .layout .., some c => some (s.flushAndAsk now c q)
    | .layout .., none => some (s.finishQuery (.error s.invalidState))
  | .checking c =>
    if s.advertises q.advertised then some (s.goAhead now q c) else some (s, .naming c)
  | .naming c => some (s, .matching c (h.languageOf q.uri))
  | .matching c language =>
    if s.registry.covers q.method language q.uri then some (s.goAhead now q c)
    else some (s.giveUp q)
  | .flushing c params =>
    if s.busy c then none
    else
      match s.notify c (notice "textDocument/didChange" params) with
      | .error e => some (s.finishQuery (.error e))
      | .ok s => some (s.ask now c q)
  | .calling c call =>
    match call.result? with
    | some result => some (s, .ended (editsOf result))
    | none => (s.stepCall now c call).map fun (s, call) => (s, .calling c call)
  | .ended _ => none

/-! ## Requests of the user -/

def stepRequest (now : Nat) (s : Session) (method : String) (params : Option Json)
    (cancelled : Bool) (p : RequestPhase) : Option (Session × RequestPhase) :=
  match p with
  | .entering =>
    if s.state = .running then some (s, .looking) else some (s, .ended (.error s.invalidState))
  | .looking =>
    match s.current with
    | none => some (s, .ended (.error s.invalidState))
    | some c =>
      let (s, call) := s.beginCall now c { method, params, cancelled }
      some (s, .calling c call)
  | .calling c call =>
    match call.result? with
    | some result => some (s, .ended result)
    | none =>
      (s.stepCall now c { call with cancelled }).map fun (s, call) => (s, .calling c call)
  | .ended _ => none

end LanguageClient.Session
