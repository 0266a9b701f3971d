import LanguageClient.Document.Basic
/-!
# Parameters about text documents

What the client tells a server about its documents, and what it asks about them.

A server that knows the files extension may ask the client in turn, for the files of the workspace and
for the contents of one.
-/

namespace LanguageClient

structure TextDocumentIdentifier where
  uri : String
  deriving DecidableEq, Repr, Inhabited

instance : Payload TextDocumentIdentifier where
  toJson d := .object [("uri", toJson d.uri)]
  ofJson := Json.readRecord (do
    let uri ← .field "uri"
    return { uri }) "TextDocumentIdentifier"

/-- A document by name and version. -/
structure VersionedTextDocumentIdentifier where
  uri : String
  version : Int32
  deriving DecidableEq, Repr, Inhabited

instance : Payload VersionedTextDocumentIdentifier where
  toJson d := .object [("uri", toJson d.uri), ("version", toJson d.version)]
  ofJson := Json.readRecord (do
    let uri ← .field "uri"
    let version ← .field "version"
    return { uri, version }) "VersionedTextDocumentIdentifier"

/-- A document with all that is known of it. -/
structure TextDocumentItem where
  uri : String
  languageId : String
  version : DocumentVersion
  text : String
  deriving DecidableEq, Repr, Inhabited

namespace TextDocumentItem

/-- A document that the editor has open. -/
def ofDocument (d : Document) : TextDocumentItem :=
  { uri := d.uri, languageId := d.languageId, version := .known d.version, text := d.text }

end TextDocumentItem

instance : Payload TextDocumentItem where
  toJson d := .object [("uri", toJson d.uri), ("languageId", toJson d.languageId),
    ("version", toJson d.version), ("text", toJson d.text)]
  ofJson := Json.readRecord (do
    let uri ← .field "uri"
    let languageId ← .field "languageId"
    let version ← .field "version"
    let text ← .field "text"
    return { uri, languageId, version, text }) "TextDocumentItem"

/-- A place in a document. -/
structure TextDocumentPositionParams where
  textDocument : TextDocumentIdentifier
  position : Position
  deriving DecidableEq, Repr, Inhabited

namespace TextDocumentPositionParams

def members (p : TextDocumentPositionParams) : List (String × Json) :=
  [("textDocument", toJson p.textDocument), ("position", toJson p.position)]

def reader : RecordReader TextDocumentPositionParams := do
  let textDocument ← .field "textDocument"
  let position ← .field "position"
  return { textDocument, position }

instance : Payload TextDocumentPositionParams where
  toJson p := .object p.members
  ofJson := Json.readRecord reader "TextDocumentPositionParams"

end TextDocumentPositionParams

/-- Which uses of a name are wanted. -/
structure ReferenceContext where
  includeDeclaration : Bool
  deriving DecidableEq, Repr, Inhabited

instance : Payload ReferenceContext where
  toJson c := .object [("includeDeclaration", toJson c.includeDeclaration)]
  ofJson := Json.readRecord (do
    let includeDeclaration ← .field "includeDeclaration"
    return { includeDeclaration }) "ReferenceContext"

/-- Asks for the uses of a name; the place stands beside the context. -/
structure ReferenceParams where
  position : TextDocumentPositionParams
  context : ReferenceContext
  deriving DecidableEq, Repr, Inhabited

instance : Payload ReferenceParams where
  toJson p := .object (p.position.members ++ [("context", toJson p.context)])
  ofJson := Json.readOpenRecord (do
    let position ← TextDocumentPositionParams.reader
    let context ← .field "context"
    return { position, context }) "ReferenceParams"

structure DidOpenParams where
  textDocument : TextDocumentItem
  deriving DecidableEq, Repr, Inhabited

instance : Payload DidOpenParams where
  toJson p := .object [("textDocument", toJson p.textDocument)]
  ofJson := Json.readRecord (do
    let textDocument ← .field "textDocument"
    return { textDocument }) "DidOpenTextDocumentParams"

structure DidChangeParams where
  textDocument : VersionedTextDocumentIdentifier
  contentChanges : List TextChange
  deriving DecidableEq, Repr, Inhabited

instance : Payload DidChangeParams where
  toJson p := .object [("textDocument", toJson p.textDocument),
    ("contentChanges", toJson p.contentChanges)]
  ofJson := Json.readRecord (do
    let textDocument ← .field "textDocument"
    let contentChanges ← .field "contentChanges"
    return { textDocument, contentChanges }) "DidChangeTextDocumentParams"

structure DidCloseParams where
  textDocument : TextDocumentIdentifier
  deriving DecidableEq, Repr, Inhabited

instance : Payload DidCloseParams where
  toJson p := .object [("textDocument", toJson p.textDocument)]
  ofJson := Json.readRecord (do
    let textDocument ← .field "textDocument"
    return { textDocument }) "DidCloseTextDocumentParams"

/-- A document was saved; the text is there when the server wants it. -/
structure DidSaveParams where
  textDocument : TextDocumentIdentifier
  text : Option String
  deriving DecidableEq, Repr, Inhabited

instance : Payload DidSaveParams where
  toJson p := .object ([("textDocument", toJson p.textDocument)] ++ Json.present "text" p.text)
  ofJson := Json.readRecord (do
    let textDocument ← .field "textDocument"
    let text ← .optional "text"
    return { textDocument, text }) "DidSaveTextDocumentParams"

/-- A document is about to be saved. -/
structure WillSaveParams where
  textDocument : TextDocumentIdentifier
  reason : SaveReason
  deriving DecidableEq, Repr, Inhabited

instance : Payload WillSaveParams where
  toJson p := .object [("textDocument", toJson p.textDocument), ("reason", toJson p.reason)]
  ofJson := Json.readRecord (do
    let textDocument ← .field "textDocument"
    let reason ← .field "reason"
    return { textDocument, reason }) "WillSaveTextDocumentParams"

/-- How a document is to be laid out. -/
structure FormattingOptions where
  tabSize : UInt32 := 4
  insertSpaces : Bool := true
  deriving DecidableEq, Repr, Inhabited

instance : Payload FormattingOptions where
  toJson o := .object [("tabSize", toJson o.tabSize), ("insertSpaces", toJson o.insertSpaces)]
  ofJson := Json.readRecord (do
    let tabSize ← .field "tabSize"
    let insertSpaces ← .field "insertSpaces"
    return { tabSize, insertSpaces }) "FormattingOptions"

/-- Asks for the layout of a document. -/
structure DocumentFormattingParams where
  textDocument : TextDocumentIdentifier
  options : FormattingOptions
  deriving DecidableEq, Repr, Inhabited

instance : Payload DocumentFormattingParams where
  toJson p := .object [("textDocument", toJson p.textDocument), ("options", toJson p.options)]
  ofJson := Json.readRecord (do
    let textDocument ← .field "textDocument"
    let options ← .field "options"
    return { textDocument, options }) "DocumentFormattingParams"

/-! ## Files -/

/-- The parameters of `workspace/xfiles`: the directory to list. -/
structure FilesParams where
  base : Option String := none
  deriving DecidableEq, Repr, Inhabited

instance : Payload FilesParams where
  toJson p := .object (Json.present "base" p.base)
  ofJson := Json.readRecord (do
    let base ← .defaulted "base" none
    return { base }) "FilesParams"

/-- The parameters of `textDocument/xcontent`. -/
structure ContentParams where
  textDocument : TextDocumentIdentifier
  deriving DecidableEq, Repr, Inhabited

instance : Payload ContentParams where
  toJson p := .object [("textDocument", toJson p.textDocument)]
  ofJson := Json.readRecord (do
    let textDocument ← .field "textDocument"
    return { textDocument }) "ContentParams"

end LanguageClient
