import LanguageClient.Table
import LanguageClient.Text.Replace
import LanguageClient.Text.Numeral
/-!
# Command lines

The words of a command line name a command, perhaps one of its subcommands, and then give options and
operands.  A `Grammar` tells what a command takes, and `Grammar.read` reads the words by it.

An option is given as `--name value`, `--name=value`, `-n value`, `-nvalue` or `-n=value`; letters of
options without a value may stand together after one hyphen.  After the word `--` every word is an
operand.  A value is looked at only when the next option or operand begins, or the words end; of two
faults that are found then, the fault of the value counts.
-/

namespace LanguageClient

/-- Why words are no command, or what they ask to be shown instead of a command. -/
inductive UsageError where
  | help
  | version
  /-- A command needs a subcommand, and nothing at all is given. -/
  | bare
  /-- A command needs a subcommand, and only options are given. -/
  | noCommand
  | unknownCommand
  | unknownArgument
  /-- A value is missing or is none of those that may stand. -/
  | badValue
  /-- A value is no number, or one that is too large. -/
  | unreadableValue
  /-- An option that takes no value is given one. -/
  | tooManyValues
  /-- An option is given again, or beside one that excludes it. -/
  | conflict
  /-- An operand is missing. -/
  | missingArgument
  deriving DecidableEq, Repr, Inhabited

/-- The texts that may stand as a value. -/
inductive ValueKind where
  | text
  /-- Any text but the empty one. -/
  | path
  | choice (names : List String)
  /-- A number of at most `bound`. -/
  | natural (bound : Nat)
  deriving DecidableEq, Repr, Inhabited

namespace ValueKind

def check (s : String) : ValueKind → Except UsageError Unit
  | text => .ok ()
  | path => if s.toList.isEmpty then .error .badValue else .ok ()
  | choice names => if names.contains s then .ok () else .error .badValue
  | natural bound =>
    match Numeral.natural? bound s with
    | some _ => .ok ()
    | none => .error .unreadableValue

end ValueKind

/-- How an argument is given. -/
inductive ArgumentForm where
  /-- By its name alone, once. -/
  | switch
  /-- By its name and a value, once. -/
  | option
  /-- By its name and a value, any number of times. -/
  | options
  /-- By its place; it has to be given. -/
  | operand
  /-- By its place, any number of times. -/
  | operands
  deriving DecidableEq, Repr, Inhabited

/-- Something that a command takes. -/
structure Argument where
  name : String
  letter : Option Char := none
  form : ArgumentForm := .switch
  values : ValueKind := .text
  /-- The names of those that it excludes. -/
  excludes : List String := []
  /-- What the switch asks to be shown. -/
  shows : Option UsageError := none
  deriving DecidableEq, Repr, Inhabited

namespace Argument

def isOperand (a : Argument) : Bool :=
  a.form == .operand || a.form == .operands

def takesValue (a : Argument) : Bool :=
  a.form != .switch

def repeats (a : Argument) : Bool :=
  a.form == .options || a.form == .operands

/-- The switches that every command takes. -/
def universal : List Argument := [
  { name := "help", letter := some 'h', shows := some .help },
  { name := "version", letter := some 'V', shows := some .version }]

end Argument

/-- What a command takes, and the commands below it. -/
structure Grammar where
  name : String
  arguments : List Argument := []
  commands : List Grammar := []

namespace Grammar

/-- The word by which help is asked for, in place of a command. -/
def helpWord : String := "help"

/-- The command below that has a name. -/
def command? (g : Grammar) (name : String) : Option Grammar :=
  g.commands.find? (·.name == name)

def isCommand (g : Grammar) (word : String) : Bool :=
  (g.command? word).isSome || (!g.commands.isEmpty && word == helpWord)

def named (g : Grammar) : List Argument :=
  (Argument.universal ++ g.arguments).filter (!·.isOperand)

def operands (g : Grammar) : List Argument :=
  g.arguments.filter (·.isOperand)

/-- What comes of asking for help on a command. -/
def helpOn (g : Grammar) : List String → UsageError
  | [] => .help
  | name :: rest =>
    match g.command? name with
    | some below => helpOn below rest
    | none => if g.isCommand name && rest.isEmpty then .help else .unknownCommand

end Grammar

/-! ## Words -/

/-- What a word looks like. -/
inductive Word where
  /-- The word after which all others are operands. -/
  | escape
  | long (name : List Char) (value : Option (List Char))
  | letters (cs : List Char)
  | plain
  deriving DecidableEq, Repr, Inhabited

namespace Word

/-- What a text looks like as a word. -/
def ofChars : List Char → Word
  | ['-', '-'] => escape
  | '-' :: '-' :: cs =>
    match Text.splitOnce '=' cs with
    | some (name, value) => long name (some value)
    | none => long cs none
  | '-' :: c :: cs => letters (c :: cs)
  | _ => plain

end Word

/-! ## Reading -/

/-- What the words before some point have given to a command. -/
structure Given where
  /-- The arguments with their values, in the order in which they came. -/
  values : Table String (List String) := []
  /-- The argument whose values have not been looked at; an option without one waits for it. -/
  pending : Option (Argument × List String) := none
  /-- The operands that may still come. -/
  operands : List Argument
  /-- All further words are operands. -/
  plain : Bool := false
  deriving Repr, Inhabited

namespace Given

/-- Takes an argument with its values. -/
def accept (g : Given) (a : Argument) (values : List String) : Except UsageError Given := do
  if a.takesValue && values.isEmpty then throw .badValue
  if let some shown := a.shows then throw shown
  if g.values.has a.name && !a.repeats then throw .conflict
  values.forM fun value => a.values.check value
  return { g with values := g.values.put a.name ((g.values.get? a.name).getD [] ++ values) }

/-- Takes the argument that is pending. -/
def settle (g : Given) : Except UsageError Given :=
  match g.pending with
  | some (a, values) => { g with pending := none }.accept a values
  | none => .ok g

/-- Takes an argument after the one that is pending. -/
def give (g : Given) (a : Argument) (values : List String) : Except UsageError Given := do
  (← g.settle).accept a values

/-- Takes an option with the value that is attached to it; without one, the value is waited for. -/
def giveOption (g : Given) (a : Argument) : Option (List Char) → Except UsageError Given
  | some value => g.give a [String.ofList value]
  | none => do return { ← g.settle with pending := some (a, []) }

/-- Takes an argument that is given by its full name. -/
def takeLong (g : Given) (named : List Argument) (name : List Char) (value : Option (List Char)) :
    Except UsageError Given :=
  match named.find? (·.name.toList == name) with
  | none => .error .unknownArgument
  | some a =>
    if a.takesValue then g.giveOption a value
    else if value.isSome then .error .tooManyValues
    else g.give a []

/-- The value that is attached to a letter. -/
def attached : List Char → Option (List Char)
  | [] => none
  | '=' :: value => some value
  | value => some value

/-- Takes arguments that are given by their letters. -/
def takeLetters (g : Given) (named : List Argument) : List Char → Except UsageError Given
  | [] => .ok g
  | c :: rest =>
    match named.find? (·.letter == some c) with
    | none => .error .unknownArgument
    | some a =>
      if a.takesValue then g.giveOption a (attached rest)
      else do takeLetters (← g.give a []) named rest

/-- Takes a word as the operand whose turn it is; none when no operand is left. -/
def takeOperand (g : Given) (word : String) : Option (Except UsageError Given) :=
  match g.operands with
  | [] => none
  | a :: rest =>
    some (match g.pending with
      | some (b, values) =>
        if a = b then .ok { g with pending := some (a, values ++ [word]) }
        else g.settle.map (begin · a rest)
      | none => .ok (begin g a rest))
where
  /-- Begins an operand. -/
  begin (g : Given) (a : Argument) (rest : List Argument) : Given :=
    { g with
      pending := some (a, [word])
      operands := if a.repeats then a :: rest else rest }

/-- The option that waits for its value. -/
def waiting? (g : Given) : Option Argument :=
  match g.pending with
  | some (a, []) => some a
  | _ => none

end Given

namespace Grammar

/-- Takes one word that is no command; none when it is an operand too many. -/
def takeWord (grammar : Grammar) (g : Given) (word : String) : Option (Except UsageError Given) :=
  if g.plain then g.takeOperand word
  else
    match Word.ofChars word.toList with
    | .escape => some (.ok { g with plain := true })
    | .long name value => some (g.takeLong grammar.named name value)
    | .letters cs => some (g.takeLetters grammar.named cs)
    | .plain =>
      match g.waiting? with
      | some a => some (.ok { g with pending := some (a, [word]) })
      | none => g.takeOperand word

/-- The error for an operand too many. -/
def surplus (grammar : Grammar) (g : Given) (word : String) : UsageError :=
  if grammar.commands.isEmpty || (g.plain && grammar.isCommand word) then .unknownArgument
  else .unknownCommand

/-- Whether two of the arguments that are given exclude each other. -/
def conflicting (grammar : Grammar) (g : Given) : Bool :=
  grammar.arguments.any fun a => g.values.has a.name && a.excludes.any g.values.has

/-- What is given when all words are read. -/
def conclude (grammar : Grammar) (g : Given) : Except UsageError (Table String (List String)) := do
  let g ← g.settle
  if !grammar.commands.isEmpty then throw (if g.values.isEmpty then .bare else .noCommand)
  if grammar.conflicting g then throw .conflict
  if g.operands.any (·.form == .operand) then throw .missingArgument
  return g.values

def start (grammar : Grammar) : Given :=
  { operands := grammar.operands }

/-- Reads words after those that have given `g`. -/
def readFrom (grammar : Grammar) (g : Given) :
    List String → Except UsageError (List String × Table String (List String))
  | [] => (grammar.conclude g).map fun values => ([], values)
  | word :: rest =>
    let below := if g.plain || g.waiting?.isSome then none else grammar.command? word
    match below with
    | some below =>
      (readFrom below below.start rest).map fun (names, values) => (below.name :: names, values)
    | none =>
      if !g.plain && g.waiting?.isNone && grammar.isCommand word then .error (grammar.helpOn rest)
      else
        match grammar.takeWord g word with
        | some (.ok g) => readFrom grammar g rest
        | some (.error e) => .error e
        | none => .error (grammar.surplus g word)

/-- Reads the words of a command line: the names of the command, from the outside, and what it is
    given. -/
def read (grammar : Grammar) (words : List String) :
    Except UsageError (List String × Table String (List String)) :=
  grammar.readFrom grammar.start words

end Grammar

end LanguageClient
