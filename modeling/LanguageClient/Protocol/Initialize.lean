import LanguageClient.Document.Basic
import LanguageClient.Uri
/-!
# The handshake

What the client says of itself in `initialize`, and what the server answers.  Of the capabilities
of a server only those that the client acts on have a type of their own; the others are kept as
they came.
-/

namespace LanguageClient

/-! ## The client -/

/-- Whether the client lists files and hands out their contents. -/
structure FilesCapabilities where
  listing : Option Bool := none
  contents : Option Bool := none
  deriving DecidableEq, Repr, Inhabited

namespace FilesCapabilities

def members (c : FilesCapabilities) : List (String × Json) :=
  Json.present "xfilesProvider" c.listing ++ Json.present "xcontentProvider" c.contents

def reader : RecordReader FilesCapabilities := do
  let listing ← .optional "xfilesProvider"
  let contents ← .optional "xcontentProvider"
  return { listing, contents }

def servesListing (c : FilesCapabilities) : Bool :=
  c.listing == some true

def servesContents (c : FilesCapabilities) : Bool :=
  c.contents == some true

end FilesCapabilities

/-- What the client can do. -/
structure ClientCapabilities where
  workspace : Option Json := none
  textDocument : Option Json := none
  window : Option Json := none
  files : FilesCapabilities := {}
  deriving DecidableEq, Inhabited

namespace ClientCapabilities

instance : Payload ClientCapabilities where
  toJson c := .object (Json.present "workspace" c.workspace
    ++ Json.present "textDocument" c.textDocument ++ Json.present "window" c.window
    ++ c.files.members)
  ofJson := Json.readOpenRecord (do
    let workspace ← .optional "workspace"
    let textDocument ← .optional "textDocument"
    let window ← .optional "window"
    let files ← FilesCapabilities.reader
    return { workspace, textDocument, window, files }) "ClientCapabilities"

/-- A feature that a server may register later. -/
def dynamic (more : List (String × Json)) : Json :=
  .object (("dynamicRegistration", .bool true) :: more)

/-- What this client can do, with the given part in serving files. -/
def standard (files : FilesCapabilities) : ClientCapabilities where
  workspace := some (.object [
    ("applyEdit", .bool false),
    ("configuration", .bool true),
    ("workspaceFolders", .bool false),
    ("didChangeConfiguration", dynamic [])])
  textDocument := some (.object [
    ("synchronization", dynamic [
      ("willSave", .bool true), ("willSaveWaitUntil", .bool true), ("didSave", .bool true)]),
    ("hover", dynamic [("contentFormat", .arr [.str "markdown", .str "plaintext"])]),
    ("definition", dynamic [("linkSupport", .bool true)]),
    ("references", dynamic []),
    ("formatting", dynamic []),
    ("publishDiagnostics", .object [
      ("relatedInformation", .bool true), ("versionSupport", .bool true)])])
  window := some (.object [
    ("workDoneProgress", .bool true),
    ("showMessage", .object [
      ("messageActionItem", .object [("additionalPropertiesSupport", .bool false)])])])
  files := files

end ClientCapabilities

/-- The name and version of the client or of a server. -/
structure ProgramInfo where
  name : String
  version : Option String := none
  deriving DecidableEq, Repr, Inhabited

def ProgramInfo.reader : RecordReader ProgramInfo := do
  let name ← .field "name"
  let version ← .optional "version"
  return { name, version }

instance : Payload ProgramInfo where
  toJson i := .object ([("name", toJson i.name)] ++ Json.present "version" i.version)
  ofJson := Json.readRecord ProgramInfo.reader "ClientInfo"

/-- The parameters of `initialize`. -/
structure InitializeParams where
  processId : Option UInt32
  rootPath : Option String
  rootUri : Option String
  capabilities : ClientCapabilities
  clientInfo : Option ProgramInfo := none
  initializationOptions : Option Json := none
  trace : Option String := none
  deriving DecidableEq, Inhabited

namespace InitializeParams

instance : Payload InitializeParams where
  toJson p := .object ([("processId", toJson p.processId), ("rootPath", toJson p.rootPath),
      ("rootUri", toJson p.rootUri), ("capabilities", toJson p.capabilities)]
    ++ Json.present "clientInfo" p.clientInfo
    ++ Json.present "initializationOptions" p.initializationOptions
    ++ Json.present "trace" p.trace)
  ofJson := Json.readRecord (do
    let processId ← .optional "processId"
    let rootPath ← .optional "rootPath"
    let rootUri ← .optional "rootUri"
    let capabilities ← .field "capabilities"
    let clientInfo ← .optional "clientInfo"
    let initializationOptions ← .optional "initializationOptions"
    let trace ← .optional "trace"
    return { processId, rootPath, rootUri, capabilities, clientInfo, initializationOptions, trace })
    "InitializeParams"

/-- The name and version of this client. -/
def thisClient : ProgramInfo :=
  { name := "langlink", version := some "0.1.0" }

/-- What this client sends for a workspace. -/
def standard (processId : UInt32) (root : String) (files : FilesCapabilities)
    (options : Option Json) : InitializeParams where
  processId := some processId
  rootPath := some root
  rootUri := some (Uri.ofPath root)
  capabilities := .standard files
  clientInfo := some thisClient
  initializationOptions := options
  trace := some "off"

end InitializeParams

/-! ## The server -/

/-- How a server wants to be told of changes. -/
inductive SyncKind where
  | none
  | full
  | incremental
  deriving DecidableEq, Repr, Inhabited

namespace SyncKind

def number : SyncKind → Int
  | none => 0
  | full => 1
  | incremental => 2

def ofNumber? : Int → Option SyncKind
  | 0 => some none
  | 1 => some full
  | 2 => some incremental
  | _ => Option.none

end SyncKind

instance : Payload SyncKind where
  toJson k := .int k.number
  ofJson := readNumbered SyncKind.ofNumber? "one of: 0, 1, 2"

/-- How a server wants to be told of saves: at all, or with the text. -/
inductive SaveOption where
  | enabled (b : Bool)
  | options (includeText : Option Bool)
  deriving DecidableEq, Repr, Inhabited

namespace SaveOption

def reader : RecordReader (Option Bool) :=
  .optional "includeText"

instance : Payload SaveOption where
  toJson
    | enabled b => toJson b
    | options includeText => .object (Json.present "includeText" includeText)
  ofJson v :=
    match (ofJson v : Decoded Bool), Json.readRecord reader "SaveOptions" v with
    | .ok b, _ => .ok (enabled b)
    | _, .ok includeText => .ok (options includeText)
    | _, _ => .error (.noAlternative "SaveOption")

end SaveOption

/-- What a server wants to be told of documents. -/
structure SyncOptions where
  openClose : Option Bool := none
  change : Option SyncKind := none
  willSave : Option Bool := none
  willSaveWaitUntil : Option Bool := none
  save : Option SaveOption := none
  deriving DecidableEq, Repr, Inhabited

instance : Payload SyncOptions where
  toJson o := .object (Json.present "openClose" o.openClose ++ Json.present "change" o.change
    ++ Json.present "willSave" o.willSave
    ++ Json.present "willSaveWaitUntil" o.willSaveWaitUntil ++ Json.present "save" o.save)
  ofJson := Json.readRecord (do
    let openClose ← .optional "openClose"
    let change ← .optional "change"
    let willSave ← .optional "willSave"
    let willSaveWaitUntil ← .optional "willSaveWaitUntil"
    let save ← .optional "save"
    return { openClose, change, willSave, willSaveWaitUntil, save }) "TextDocumentSyncOptions"

/-- The two forms in which a server says what it wants to be told. -/
inductive DocumentSyncOption where
  | kind (k : SyncKind)
  | options (o : SyncOptions)
  deriving DecidableEq, Repr, Inhabited

instance : Payload DocumentSyncOption where
  toJson
    | .kind k => toJson k
    | .options o => toJson o
  ofJson v :=
    match (ofJson v : Decoded SyncKind), (ofJson v : Decoded SyncOptions) with
    | .ok k, _ => .ok (.kind k)
    | _, .ok o => .ok (.options o)
    | _, _ => .error (.noAlternative "TextDocumentSync")

/-- What a server can do.  `other` has the members that have no place of their own. -/
structure ServerCapabilities where
  sync : Option DocumentSyncOption := none
  formattingProvider : Option Json := none
  other : List (String × Json) := []
  deriving DecidableEq, Inhabited

namespace ServerCapabilities

/-- The names of the members that have a place of their own. -/
def ownMembers : List String := ["textDocumentSync", "documentFormattingProvider"]

instance : Payload ServerCapabilities where
  toJson c := .object (Json.present "textDocumentSync" c.sync
    ++ Json.present "documentFormattingProvider" c.formattingProvider ++ c.other)
  ofJson v := do
    let (sync, formattingProvider) ← Json.readOpenRecord (do
      let sync ← .optional "textDocumentSync"
      let formattingProvider ← .optional "documentFormattingProvider"
      return (sync, formattingProvider)) "ServerCapabilities" v
    let members := match v with
      | .obj members => members
      | _ => []
    return {
      sync, formattingProvider
      other := members.filter fun (name, _) => !ownMembers.contains name }

/-- How the server wants to be told of changes. -/
def syncKind (c : ServerCapabilities) : SyncKind :=
  match c.sync with
  | some (.kind k) => k
  | some (.options o) => o.change.getD .none
  | none => .none

def willSave (c : ServerCapabilities) : Bool :=
  match c.sync with
  | some (.options o) => o.willSave == some true
  | _ => false

def willSaveWaitUntil (c : ServerCapabilities) : Bool :=
  match c.sync with
  | some (.options o) => o.willSaveWaitUntil == some true
  | _ => false

/-- Whether the server wants to be told of a save, and whether with the text. -/
def save (c : ServerCapabilities) : Bool × Bool :=
  match c.sync with
  | some (.options o) =>
    match o.save with
    | some (.enabled b) => (b, false)
    | some (.options includeText) => (true, includeText.getD false)
    | none => (true, false)
  | _ => (true, false)

/-- Whether the server lays out documents. -/
def formatting (c : ServerCapabilities) : Bool :=
  match c.formattingProvider with
  | some (.bool b) => b
  | some (.obj _) => true
  | _ => false

end ServerCapabilities

/-- The result of `initialize`. -/
structure InitializeResult where
  capabilities : ServerCapabilities := {}
  serverInfo : Option ProgramInfo := none
  deriving DecidableEq, Inhabited

instance : Payload InitializeResult where
  toJson r := .object ([("capabilities", toJson r.capabilities)]
    ++ Json.present "serverInfo" r.serverInfo)
  ofJson := Json.readRecord (do
    let capabilities ← .field "capabilities"
    let serverInfo ← .optional "serverInfo"
    return { capabilities, serverInfo }) "InitializeResult"

end LanguageClient
