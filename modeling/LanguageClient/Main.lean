import LanguageClient.Json.Printer
import LanguageClient.Trial.CommandLine
/-!
# The command line

Reads the files that a command may look at, carries the command out, and prints its report.  No
process is started and no address is dialled from here, so that a query or a run reports every server
as one that cannot be reached.
-/

namespace LanguageClient

def loadFile (tree : FileTree) (path : String) : IO FileTree := do
  try
    let real := toString (← IO.FS.realPath path)
    let octets := (← IO.FS.readBinFile real).toList
    let tree := tree.place real (.file octets)
    return if real = path then tree else tree.place path (.link real)
  catch _ => return tree

/-- The files that a command opens. -/
def Command.files (root : String) : Command → List String
  | run files .. => files.map (Path.join root)
  | query _ place .. =>
    match Location.parse place with
    | .ok location => [Path.join root location.file]
    | .error _ => []
  | _ => []

/-- The settings file of the user, below the directory for settings or else the one of the user. -/
def userSettings (configHome home : Option String) : String :=
  let base := (configHome.or (home.map fun home => Path.join home ".config")).getD "."
  Path.join (Path.join base "langlink") "config.toml"

/-- Writes the settings file that a command has made. -/
def saveSettings (store : SettingsStore) (tree : FileTree) : Command → IO Unit
  | .initSettings ofUser _ => do
    let path := store.file ofUser
    if let .ok octets := tree.read path then
      if let some parent := FileTree.parent? path then IO.FS.createDirAll parent
      IO.FS.writeBinFile path ⟨octets.toArray⟩
  | _ => return ()

/-- What is printed in place of a report when the words are no command. -/
def usageText : UsageError → String
  | .version => "langlink 0.1.0"
  | .help => "Usage: langlink <" ++ "|".intercalate (Command.grammar.commands.map (·.name)) ++ ">"
  | _ => "error: invalid arguments; see 'langlink --help'"

/-- Carries a command out and prints its report. -/
def perform (command : Command) : IO UInt32 := do
  let root := toString (← IO.currentDir)
  let names := ["LANGLINK_LSP_TIMEOUT", "LANGLINK_SYNC_DELAY_MS", "LANGLINK_XFILES",
    "LANGLINK_XCONTENT"]
  let values ← names.mapM fun name => return (name, ← IO.getEnv name)
  let userFile := userSettings (← IO.getEnv "XDG_CONFIG_HOME") (← IO.getEnv "HOME")
  let store : SettingsStore := { root, userFile, env := fun name => (values.lookup name).join }
  let settings := [store.file true, store.file false]
  let paths := settings.filterMap FileTree.parent? ++ settings ++ command.files root
  let tree ← paths.foldlM loadFile (({} : FileTree).place root (.dir []))
  let site : CommandSite := { store, tree, reach := fun _ => .refused "out of reach" }
  let outcome := Trial.carryOut site [] command
  match outcome.result with
  | .error message =>
    IO.println (Report.failure message).renderIndented
    return 2
  | .ok report =>
    saveSettings store outcome.tree command
    IO.println report.renderIndented
    return 0

end LanguageClient

def main (args : List String) : IO UInt32 := do
  match LanguageClient.Command.read args with
  | .ok command => LanguageClient.perform command
  | .error e =>
    if e = .help ∨ e = .version then
      IO.println (LanguageClient.usageText e)
      return 0
    else
      IO.eprintln (LanguageClient.usageText e)
      return 2
