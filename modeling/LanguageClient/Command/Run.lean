import LanguageClient.Manager
import LanguageClient.Report
/-!
# Runs

A run starts servers, gives them time to say something about the files that were opened, stops them,
and reports which servers there were and what they said.
-/

namespace LanguageClient.Run

/-- The settings with only those servers that have one of the names; all of them when there is no
    name. -/
def select (config : ClientConfig) (names : List String) : Except CommandError ClientConfig :=
  if names.isEmpty then .ok config
  else
    match names.find? fun name => (config.server? name).isNone with
    | some name => .error (.unknownServer name)
    | none =>
      .ok { config with servers := config.effectiveServers.filter (names.contains ·.name) }

/-- Opens files one after another; tells how each is shown. -/
def openFiles (h : Host) : List String → Except CommandError (List String × Host)
  | [] => .ok ([], h)
  | file :: files => do
    let (d, h) ← (h.openFile file).mapError CommandError.unreadable
    let (shown, h) ← openFiles h files
    return (Report.displayUri h.root d.uri :: shown, h)

/-- The manager for the servers of a run, and how the files that it opens are shown. -/
def prepare (config : ClientConfig) (h : Host) (files names : List String) :
    Except CommandError (List String × Manager) := do
  let config ← select config names
  let (opened, h) ← openFiles h files
  return (opened, .ofConfig config h)

/-! ## Reporting -/

/-- A server, how it stood when the time was over, and why it did not start. -/
structure ServerOutcome where
  name : String
  state : SessionState
  failure : Option ClientError
  deriving Inhabited

/-- The outcome for every server that was to start. -/
def outcomes (results : List (String × Option ClientError))
    (states : List (String × SessionState)) : List ServerOutcome :=
  (results.zip states).map fun ((name, failure), (_, state)) => { name, state, failure }

def ServerOutcome.toJson (s : ServerOutcome) : Json :=
  .object ([("name", .str s.name), ("state", .str s.state.text)]
    ++ Json.present "error" (s.failure.map ClientError.message))

def severityText : Severity → String
  | .error => "error"
  | .warning => "warning"
  | .information => "information"
  | .hint => "hint"

/-- A diagnostic as it is printed: its place counted from one. -/
def diagnosticJson (d : Diagnostic) : Json :=
  .object ([("line", .int (d.range.start.line + 1).toNat),
      ("column", .int (d.range.start.character + 1).toNat), ("message", .str d.message)]
    ++ Json.present "severity" (d.severity.map severityText))

def diagnosticsJson (root : String) (diagnostics : Table String (List Diagnostic)) : Json :=
  .object (diagnostics.map fun (uri, ds) =>
    (Report.displayUri root uri, .arr (ds.map diagnosticJson)))

def report (h : Host) (opened : List String) (servers : List ServerOutcome) : Json :=
  Report.success [("servers", .arr (servers.map ServerOutcome.toJson)),
    ("opened", .arr (opened.map Json.str)), ("diagnostics", diagnosticsJson h.root h.diagnostics)]

end LanguageClient.Run
