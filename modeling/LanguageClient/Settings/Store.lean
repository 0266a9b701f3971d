import LanguageClient.Settings.Server
import LanguageClient.Toml.Document
import LanguageClient.Workspace.FileTree
/-!
# Settings files

Settings come from two files, one for the user and one for the project, and from the environment.
What the project says of times and files replaces what the user says as a whole; the servers of the
project replace those of the user only if there are any.  A variable of the environment replaces one
setting.
-/

namespace LanguageClient

namespace ClientConfig

/-- The items of an array that a record of so many members takes; further ones do not count. -/
def firstItems (count : Nat) : Json → Json
  | .arr items => .arr (items.take count)
  | v => v

/-- The settings that a settings file describes. -/
def ofToml? (text : String) : Option ClientConfig :=
  match Toml.parse? text with
  | some (.obj members) =>
    let members := members.map fun (key, v) =>
      if key = "lsp" then (key, firstItems 5 v)
      else if key = "files" then (key, firstItems 4 v)
      else (key, v)
    (ofJson (.obj members) : Decoded ClientConfig).toOption
  | _ => none

def toToml (c : ClientConfig) : String :=
  Toml.render c.members

/-- The settings of a user together with those of a project. -/
def merge (user project : ClientConfig) : ClientConfig :=
  { project with servers := if project.servers.isEmpty then user.servers else project.servers }

/-! ## The environment -/

/-- The value that a variable sets. -/
def readVariable {α : Type} (parse : String → Option α) (key value : String) :
    Except ConfigError α :=
  match parse (Text.trim value) with
  | some x => .ok x
  | none => .error (.invalidValue key ("cannot parse '" ++ value ++ "'"))

def word? (s : String) : Option UInt64 :=
  (Numeral.natural? Numeral.maxWord64 s).map UInt64.ofNat

def truth? : String → Option Bool
  | "true" => some true
  | "false" => some false
  | _ => none

/-- Takes a setting from a variable, if there is one. -/
def override {α : Type} (env : String → Option String) (parse : String → Option α) (key : String)
    (set : α → ClientConfig) (c : ClientConfig) : Except ConfigError ClientConfig :=
  match env key with
  | some value => (readVariable parse key value).map set
  | none => .ok c

/-- The settings as the environment changes them. -/
def overrideAll (env : String → Option String) (c : ClientConfig) :
    Except ConfigError ClientConfig := do
  let c ← override env word? "LANGLINK_LSP_TIMEOUT"
    (fun n => { c with timing := { c.timing with timeoutSecs := n } }) c
  let c ← override env word? "LANGLINK_SYNC_DELAY_MS"
    (fun n => { c with timing := { c.timing with syncDelayMs := n } }) c
  let c ← override env truth? "LANGLINK_XFILES"
    (fun b => { c with files := { c.files with listing := b } }) c
  override env truth? "LANGLINK_XCONTENT"
    (fun b => { c with files := { c.files with contents := b } }) c

end ClientConfig

/-- Where settings are kept. -/
structure SettingsStore where
  root : String
  userFile : String
  env : String → Option String := fun _ => none

namespace SettingsStore

def projectFile (s : SettingsStore) : String :=
  Path.join (Path.join s.root ".langlink") "config.toml"

def file (s : SettingsStore) (ofUser : Bool) : String :=
  if ofUser then s.userFile else s.projectFile

/-- Reads a settings file, if there is one. -/
def readFile? (tree : FileTree) (path : String) : Except ConfigError (Option ClientConfig) := do
  if !tree.pathExists path then return none
  let text ← (tree.readText path).mapError ConfigError.system
  match ClientConfig.ofToml? text with
  | some c => return some c
  | none => throw (.parse (path ++ ": not a settings file"))

/-- The settings in force, or only those of the user. -/
def load (s : SettingsStore) (tree : FileTree) (userOnly : Bool) :
    Except ConfigError ClientConfig := do
  let user := (← readFile? tree s.userFile).getD {}
  if userOnly then return user
  let merged := match ← readFile? tree s.projectFile with
    | some project => user.merge project
    | none => user
  merged.overrideAll s.env

/-- The settings that a new settings file holds. -/
def initial : ClientConfig :=
  { servers := ServerConfig.standard }

/-- Writes a new settings file; one that is there is replaced only by force. -/
def init (s : SettingsStore) (tree : FileTree) (ofUser force : Bool) :
    Except ConfigError (String × FileTree) := do
  let path := s.file ofUser
  if tree.pathExists path && !force then
    throw (.invalidValue "config"
      ("Config already exists: " ++ path ++ ". Use --force to overwrite."))
  let tree ← match FileTree.parent? path with
    | some parent => (tree.makeDirs parent).mapError ConfigError.system
    | none => pure tree
  let tree ← (tree.write path (Utf8.encodeString initial.toToml)).mapError ConfigError.system
  return (path, tree)

end SettingsStore

end LanguageClient
