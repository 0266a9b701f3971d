import LanguageClient.Document.Language
import LanguageClient.Settings.Basic
/-!
# Configured servers

A server has a name, a way to reach it, and the documents it is responsible for.
-/

namespace LanguageClient

/-- How a server is reached. -/
inductive ServerTransport where
  /-- A process is started and spoken to over its standard streams. -/
  | process (command : String) (args : List String)
  /-- A server listens at an address. -/
  | socket (address : String)
  deriving DecidableEq, Repr, Inhabited

namespace ServerTransport

def text : ServerTransport → String
  | process command [] => "stdio:" ++ command
  | process command args => "stdio:" ++ command ++ " " ++ " ".intercalate args
  | socket address => "tcp:" ++ address

def startsProcess : ServerTransport → Bool
  | process .. => true
  | socket _ => false

def members : ServerTransport → List (String × Json)
  | process command args => [("command", toJson command), ("args", toJson args)]
  | socket address => [("address", toJson address)]

def processReader : RecordReader ServerTransport := do
  let command ← .field "command"
  let args ← .defaulted "args" []
  return process command args

def socketReader : RecordReader ServerTransport := do
  let address ← .field "address"
  return socket address

def reader : RecordReader ServerTransport := fun members =>
  match processReader.run members, socketReader.run members with
  | .ok found, _ => .ok found
  | _, .ok found => .ok found
  | _, _ => .error (.noAlternative "ServerTransport")

end ServerTransport

/-- A server and what it is for. -/
structure ServerConfig where
  name : String
  transport : ServerTransport
  languages : List String := []
  /-- Patterns for the paths of the documents it is responsible for. -/
  patterns : List String := []
  initializationOptions : Option Json := none
  deriving DecidableEq, Inhabited

namespace ServerConfig

def members (s : ServerConfig) : List (String × Json) :=
  [("name", toJson s.name)] ++ s.transport.members
    ++ [("languages", toJson s.languages), ("patterns", toJson s.patterns)]
    ++ Json.present "initialization_options" s.initializationOptions

instance : Payload ServerConfig where
  toJson s := .object s.members
  ofJson := Json.readOpenRecord (do
    let name ← .field "name"
    let transport ← ServerTransport.reader
    let languages ← .defaulted "languages" []
    let patterns ← .defaulted "patterns" []
    let initializationOptions ← .defaulted "initialization_options" none
    return { name, transport, languages, patterns, initializationOptions }) "ServerConfig"

/-- The documents that the server is responsible for. -/
def selector (s : ServerConfig) : DocumentSelector :=
  .ofLanguagesAndPatterns s.languages s.patterns

/-- A server that is a process started without arguments. -/
def ofCommand (name command : String) (languages : List String) : ServerConfig :=
  { name, transport := .process command [], languages }

/-- A server that listens. -/
def ofAddress (name address : String) (languages : List String) : ServerConfig :=
  { name, transport := .socket address, languages }

/-- The servers that are used when none are configured. -/
def standard : List ServerConfig := [
  ofCommand "sample_server" "sample_server" ["plaintext"],
  ofCommand "langserver-go" "langserver-go" ["go"],
  ofCommand "langserver-python" "langserver-python" ["python"],
  ofCommand "langserver-ctags" "langserver-ctags" ["php"],
  ofAddress "tcp-2088" "127.0.0.1:2088" ["typescript", "javascript"]]

end ServerConfig

/-- All settings. -/
structure ClientConfig where
  timing : TimingSettings := {}
  files : FilesSettings := {}
  servers : List ServerConfig := []
  deriving DecidableEq, Inhabited

namespace ClientConfig

def members (c : ClientConfig) : List (String × Json) :=
  [("lsp", .obj c.timing.members), ("files", .obj c.files.members),
    ("servers", .arr (c.servers.map fun s => .obj s.members))]

instance : Payload ClientConfig where
  toJson c := .object [("lsp", toJson c.timing), ("files", toJson c.files),
    ("servers", toJson c.servers)]
  ofJson := Json.readRecord (do
    let timing ← .defaulted "lsp" {}
    let files ← .defaulted "files" {}
    let servers ← .defaulted "servers" []
    return { timing, files, servers }) "ClientConfig"

/-- The servers in use. -/
def effectiveServers (c : ClientConfig) : List ServerConfig :=
  if c.servers.isEmpty then ServerConfig.standard else c.servers

def server? (c : ClientConfig) (name : String) : Option ServerConfig :=
  c.effectiveServers.find? (·.name == name)

end ClientConfig

end LanguageClient
