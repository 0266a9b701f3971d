import LanguageClient.Document.Location
import LanguageClient.Error
import LanguageClient.Json.Basic
import LanguageClient.Path
import LanguageClient.Settings.Store
import LanguageClient.Uri
/-!
# Reports

A command reports one object, which says whether the command succeeded.  A file of the workspace is
shown by its path from there, any other by its own path, and a document that is no file by its URI.

Some faults end a command before it has anything to report (`CommandError`).  The commands about settings
talk to no server: they list the servers in use, and show and write settings (`SettingsReport`).
-/

namespace LanguageClient

namespace Report

/-- A path as it is shown. -/
def relativePath (root path : String) : String :=
  (Path.below? root path).getD path

/-- A URI as it is shown. -/
def displayUri (root uri : String) : String :=
  match Uri.toPath? uri with
  | some path => relativePath root path
  | none => uri

def success (members : List (String × Json)) : Json :=
  .object (members ++ [("success", .bool true)])

def failure (message : String) : Json :=
  .object [("success", .bool false), ("error", .str message)]

end Report

/-! ## Why commands fail -/

/-- Why a command fails. -/
inductive CommandError where
  | location (cause : LocationError)
  /-- The file of a location is not there. -/
  | fileNotFound (path : String)
  /-- A file cannot be opened. -/
  | unreadable (cause : ClientError)
  /-- The line that is to start a server has no words. -/
  | emptyServerCommand
  | unknownServer (name : String)
  /-- No server in use is responsible for documents in a language. -/
  | noServerFor (languageId : String)
  deriving DecidableEq, Inhabited

namespace CommandError

def message : CommandError → String
  | location cause => cause.message
  | fileNotFound path => "File not found: " ++ path
  | unreadable cause => cause.message
  | emptyServerCommand => "Empty server command"
  | unknownServer name => "Unknown server: " ++ name
  | noServerFor languageId => "No configured server handles '" ++ languageId ++ "' files"

end CommandError

/-! ## Settings -/

namespace SettingsReport

/-- A server as it is listed. -/
def serverJson (s : ServerConfig) : Json :=
  .object ([("name", .str s.name), ("transport", .str s.transport.text),
      ("languages", toJson s.languages)]
    ++ if s.patterns.isEmpty then [] else [("patterns", toJson s.patterns)])

/-- The list of the servers in use; `builtin` says that none are configured. -/
def servers (config : ClientConfig) : Json :=
  Report.success [("builtin", .bool config.servers.isEmpty),
    ("servers", .arr (config.effectiveServers.map serverJson))]

/-- The path of a settings file as it is shown. -/
def shownPath (store : SettingsStore) (ofUser : Bool) (path : String) : String :=
  if ofUser then path else Report.relativePath store.root path

def level (ofUser : Bool) : String :=
  if ofUser then "global" else "project"

def init (store : SettingsStore) (tree : FileTree) (ofUser force : Bool) : Json × FileTree :=
  match store.init tree ofUser force with
  | .ok (path, tree) =>
    (Report.success [("status", .str "created"), ("path", .str (shownPath store ofUser path)),
      ("level", .str (level ofUser))], tree)
  | .error e => (Report.failure e.message, tree)

def «show» (store : SettingsStore) (tree : FileTree) (ofUser : Bool) : Json :=
  match store.load tree ofUser with
  | .ok config =>
    Report.success [("level", .str (if ofUser then "global" else "merged")),
      ("config", toJson config)]
  | .error e => Report.failure e.message

def path (store : SettingsStore) (tree : FileTree) (ofUser : Bool) : Json :=
  let file := store.file ofUser
  Report.success [("level", .str (level ofUser)), ("path", .str (shownPath store ofUser file)),
    ("exists", .bool (tree.pathExists file))]

end SettingsReport

end LanguageClient
