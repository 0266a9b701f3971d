import LanguageClient.Host.Basic
import LanguageClient.Protocol.TextDocument
/-!
# Serving files

What the client answers a server that asks for the files of the workspace or for the content of one.
The content of an open document is the text that the editor has; any other content is read from the
file, and has no version.
-/

namespace LanguageClient.FileService

def listMethod : String := "workspace/xfiles"

def contentMethod : String := "textDocument/xcontent"

/-- The directory that a request for files means. -/
def baseOf (h : Host) (params : FilesParams) : String :=
  Workspace.resolveBase h.root params.base

def listing (paths : List String) : List TextDocumentIdentifier :=
  paths.map fun path => ⟨Uri.ofPath path⟩

/-- The files below the directory that a request means. -/
def list (h : Host) (params : FilesParams) (fired : Nat → Bool) :
    Except ClientError (List TextDocumentIdentifier) :=
  (h.listFiles (baseOf h params) fired).map listing

/-- Where a content comes from. -/
inductive Source where
  | opened (d : Document)
  | disk (path : String)
  deriving DecidableEq, Inhabited

/-- Where the content of a document comes from. -/
def source (h : Host) (uri : String) : Except ClientError Source :=
  match h.document? uri with
  | some d => .ok (.opened d)
  | none =>
    match Uri.toPath? uri with
    | some path => .ok (.disk path)
    | none => .error (.protocol ("Cannot read content of " ++ uri))

/-- The answer for the content of a file. -/
def diskItem (h : Host) (uri path : String) : Except ClientError TextDocumentItem :=
  (h.fileText path).map fun text =>
    { uri, languageId := languageOfPath path, version := .unknown, text }

/-- The content of a document. -/
def content (h : Host) (params : ContentParams) (cancelled : Bool) :
    Except ClientError TextDocumentItem := do
  match ← source h params.textDocument.uri with
  | .opened d => return .ofDocument d
  | .disk path => if cancelled then throw .cancelled else diskItem h params.textDocument.uri path

end LanguageClient.FileService
