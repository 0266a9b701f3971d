import LanguageClient.Document.Language
import LanguageClient.Error
import LanguageClient.Protocol.Initialize
import LanguageClient.Protocol.TextDocument
import LanguageClient.Table
/-!
# What a server knows of the documents

`DocumentSync` holds which documents the server has been told of, each with the version it was last
sent.  With full synchronisation a change is not sent at once: it is staged for a while, and a
later change takes its place.  Each staged change has a generation, a number that is never given
twice; whoever waits for the delay takes the change out by its generation, and comes too late when
another event has released or replaced it.

The list `lapsed` has the generations whose staged change is no longer waited for.
-/

namespace LanguageClient

/-- A change that waits to be sent. -/
structure StagedChange where
  version : Int32
  text : String
  generation : Nat
  deriving DecidableEq, Repr, Inhabited

/-- What has been told to a server, and what waits. -/
structure DocumentSync where
  selector : DocumentSelector
  kind : SyncKind := .none
  /-- The version last sent of each document that the server has open. -/
  announced : Table String Int32 := []
  staged : Table String StagedChange := []
  lastGeneration : Nat := 0
  /-- The generations that nobody has to wait for any more. -/
  lapsed : List Nat := []
  deriving Repr, Inhabited

/-- What is to be done with a change. -/
inductive ChangeAction where
  | ignore
  | send (params : DidChangeParams)
  | staged (generation : Nat)
  deriving DecidableEq, Repr, Inhabited

namespace DocumentSync

/-- Nothing is told, and nothing will be before a kind is agreed on. -/
def new (selector : DocumentSelector) : DocumentSync :=
  { selector }

/-- Takes the kind that the server wants. -/
def configure (s : DocumentSync) (kind : SyncKind) : DocumentSync :=
  { s with kind }

def isAnnounced (s : DocumentSync) (uri : String) : Bool :=
  s.announced.has uri

/-- A document is open: tells the server if it wants to know of the document and does not yet. -/
def «open» (s : DocumentSync) (d : Document) : Option DidOpenParams × DocumentSync :=
  if s.kind = .none ∨ s.isAnnounced d.uri ∨ !s.selector.selects d.languageId d.uri then (none, s)
  else
    (some ⟨.ofDocument d⟩, { s with announced := s.announced.put d.uri d.version })

/-- Takes away the staged change of a document, which then has lapsed. -/
def unstage (s : DocumentSync) (uri : String) : DocumentSync :=
  match s.staged.get? uri with
  | none => s
  | some change =>
    { s with staged := s.staged.erase uri, lapsed := s.lapsed ++ [change.generation] }

@[simp] theorem kind_unstage (s : DocumentSync) (uri : String) :
    (s.unstage uri).kind = s.kind := by
  unfold unstage; split <;> rfl

@[simp] theorem selector_unstage (s : DocumentSync) (uri : String) :
    (s.unstage uri).selector = s.selector := by
  unfold unstage; split <;> rfl

@[simp] theorem announced_unstage (s : DocumentSync) (uri : String) :
    (s.unstage uri).announced = s.announced := by
  unfold unstage; split <;> rfl

@[simp] theorem lastGeneration_unstage (s : DocumentSync) (uri : String) :
    (s.unstage uri).lastGeneration = s.lastGeneration := by
  unfold unstage; split <;> rfl

@[simp] theorem get?_staged_unstage (s : DocumentSync) (uri other : String) :
    (s.unstage uri).staged.get? other = if uri = other then none else s.staged.get? other := by
  unfold unstage
  split
  · rename_i h
    by_cases same : uri = other
    · subst same; simpa using h
    · simp [same]
  · simp

/-- Without a staged change there is nothing to take away. -/
theorem unstage_of_get?_eq_none {s : DocumentSync} {uri : String}
    (h : s.staged.get? uri = none) : s.unstage uri = s := by
  simp [unstage, h]

/-- The parameters that tell of changes. -/
def didChange (uri : String) (version : Int32) (changes : List TextChange) : DidChangeParams :=
  { textDocument := ⟨uri, version⟩, contentChanges := changes }

/-- The newest version of an announced document: the one last sent, or a later one staged. -/
def newestVersion (s : DocumentSync) (uri : String) (lastSent : Int32) : Int32 :=
  match s.staged.get? uri with
  | some change => if change.version < lastSent then lastSent else change.version
  | none => lastSent

/-- A document has changed.  A change of an older version than the newest is refused. -/
def change (s : DocumentSync) (c : DocumentChange) :
    Except ClientError (ChangeAction × DocumentSync) :=
  match s.announced.get? c.uri with
  | none => .ok (.ignore, s)
  | some lastSent =>
    let newest := s.newestVersion c.uri lastSent
    if c.version < newest then .error (.staleVersion c.uri c.version newest)
    else
      match s.kind with
      | .none => .ok (.ignore, s)
      | .incremental =>
        .ok (.send (didChange c.uri c.version c.changes),
          { s with announced := s.announced.put c.uri c.version })
      | .full =>
        let generation := s.lastGeneration + 1
        let s := s.unstage c.uri
        .ok (.staged generation,
          { s with
            lastGeneration := generation
            staged := s.staged.put c.uri { version := c.version, text := c.text, generation } })

/-- Sends the staged change of a document, if there is one. -/
def release (s : DocumentSync) (uri : String) : Option DidChangeParams × DocumentSync :=
  match s.staged.get? uri with
  | none => (none, s)
  | some staged =>
    let s := s.unstage uri
    if s.isAnnounced uri then
      (some (didChange uri staged.version [.full staged.text]),
        { s with announced := s.announced.put uri staged.version })
    else (none, s)

/-- The delay of a staged change is over: sends it, unless something else has come in between. -/
def takeStaged (s : DocumentSync) (uri : String) (generation : Nat) :
    Option DidChangeParams × DocumentSync :=
  match s.staged.get? uri with
  | none => (none, s)
  | some staged => if staged.generation = generation then s.release uri else (none, s)

/-- Sends the staged change of a document ahead of its time. -/
def flush (s : DocumentSync) (uri : String) : Option DidChangeParams × DocumentSync :=
  s.release uri

/-- A document was saved. -/
def save (s : DocumentSync) (uri : String) (text : Option String) : Option DidSaveParams :=
  if s.isAnnounced uri then some ⟨⟨uri⟩, text⟩ else none

/-- A document was closed; what was staged for it is dropped. -/
def close (s : DocumentSync) (uri : String) : Option DidCloseParams × DocumentSync :=
  let s := s.unstage uri
  if s.isAnnounced uri then
    (some ⟨⟨uri⟩⟩, { s with announced := s.announced.erase uri })
  else (none, s)

/-- The server is gone: nothing is told and nothing waits. -/
def reset (s : DocumentSync) : DocumentSync :=
  { s with
    announced := []
    staged := []
    lapsed := s.lapsed ++ s.staged.values.map (·.generation) }

end DocumentSync

end LanguageClient
