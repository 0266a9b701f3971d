import LanguageClient.Command.Grammar
/-!
# Commands

What the program can be told to do, and how it is told.
-/

namespace LanguageClient

/-- What a server can be asked about a place in a document. -/
inductive QueryKind where
  | hover
  | definition
  | references
  deriving DecidableEq, Repr, Inhabited

namespace QueryKind

def all : List QueryKind := [hover, definition, references]

def name : QueryKind → String
  | hover => "hover"
  | definition => "definition"
  | references => "references"

def method : QueryKind → String
  | hover => "textDocument/hover"
  | definition => "textDocument/definition"
  | references => "textDocument/references"

end QueryKind

/-- Which server is asked. -/
inductive ServerChoice where
  /-- The first server in use that is responsible for the document. -/
  | responsible
  | named (name : String)
  /-- A server that listens at an address. -/
  | address (address : String)
  /-- A process that is started by a line of words. -/
  | process (line : String)
  deriving DecidableEq, Repr, Inhabited

/-- What the program is told to do. -/
inductive Command where
  /-- Servers are started, files are opened, and diagnostics are collected for some time. -/
  | run (files servers : List String) (waitMillis : Nat) (interactive : Bool)
  /-- One server is asked about a place; the place of the declaration may count as a use. -/
  | query (kind : QueryKind) (location : String) (choice : ServerChoice) (declaration : Bool)
  | servers
  | initSettings (ofUser force : Bool)
  | showSettings (ofUser : Bool)
  | settingsPath (ofUser : Bool)
  deriving DecidableEq, Repr, Inhabited

namespace Command

/-! ## The grammar -/

/-- The switch for more of a log; every command takes it. -/
def verbose : Argument :=
  { name := "verbose", letter := some 'v' }

/-- The switch for the settings of the user. -/
def globalSwitch : Argument :=
  { name := "global" }

def runGrammar : Grammar where
  name := "run"
  arguments := [verbose,
    { name := "files", form := .operands, values := .path },
    { name := "server", letter := some 's', form := .options },
    { name := "wait-ms", form := .option, values := .natural Numeral.maxWord64 },
    { name := "interactive", letter := some 'i' }]

def queryGrammar : Grammar where
  name := "query"
  arguments := [verbose,
    { name := "kind", form := .operand, values := .choice (QueryKind.all.map QueryKind.name) },
    { name := "location", form := .operand },
    { name := "server", letter := some 's', form := .option, excludes := ["address", "command"] },
    { name := "address", form := .option, excludes := ["command"] },
    { name := "command", form := .option },
    { name := "no-declaration" }]

def settingsGrammar : Grammar where
  name := "config"
  arguments := [verbose]
  commands := [
    { name := "init"
      arguments := [verbose, globalSwitch, { name := "force", letter := some 'f' }] },
    { name := "show", arguments := [verbose, globalSwitch] },
    { name := "path", arguments := [verbose, globalSwitch] }]

def grammar : Grammar where
  name := "langlink"
  arguments := [verbose]
  commands := [runGrammar, queryGrammar, { name := "servers", arguments := [verbose] },
    settingsGrammar]

/-! ## Reading -/

/-- How long a run waits when nothing else is said, in milliseconds. -/
def standardWait : Nat := 2000

/-- The values of an argument. -/
def valuesOf (values : Table String (List String)) (name : String) : List String :=
  (values.get? name).getD []

def value? (values : Table String (List String)) (name : String) : Option String :=
  (valuesOf values name).head?

def choiceOf (values : Table String (List String)) : ServerChoice :=
  match value? values "address", value? values "command", value? values "server" with
  | some address, _, _ => .address address
  | none, some line, _ => .process line
  | none, none, some name => .named name
  | none, none, none => .responsible

def runOf (values : Table String (List String)) : Command :=
  let wait := (value? values "wait-ms").bind (Numeral.natural? Numeral.maxWord64)
  .run (valuesOf values "files") (valuesOf values "server") (wait.getD standardWait)
    (values.has "interactive")

def queryOf (values : Table String (List String)) : Command :=
  let name := (value? values "kind").getD ""
  .query ((QueryKind.all.find? (·.name == name)).getD .hover)
    ((value? values "location").getD "") (choiceOf values) (!values.has "no-declaration")

/-- Reads the words of a command line. -/
def read (words : List String) : Except UsageError Command := do
  let (names, values) ← grammar.read words
  let ofUser := values.has "global"
  match names with
  | ["run"] => return runOf values
  | ["query"] => return queryOf values
  | ["servers"] => return .servers
  | ["config", "init"] => return .initSettings ofUser (values.has "force")
  | ["config", "show"] => return .showSettings ofUser
  | ["config", "path"] => return .settingsPath ofUser
  | _ => throw .unknownCommand

end Command

end LanguageClient
