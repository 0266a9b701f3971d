import LanguageClient.Document.Position
import LanguageClient.Text.Replace
import LanguageClient.Text.Numeral
/-!
# Locations as a user writes them

A location is `file:line` or `file:line:column`, line and column counted from one.  The file ends at
the first colon that is followed by a digit or a minus sign; a colon after a single letter at the
very beginning does not count, for it belongs to the name of a drive.
-/

namespace LanguageClient

/-- A file and a place in it; a location that was read has no zero. -/
structure Location where
  file : String
  line : UInt32
  column : UInt32
  deriving DecidableEq, Repr, Inhabited

/-- Why a text is no location. -/
inductive LocationError where
  | empty
  /-- No colon ends the file. -/
  | noPosition
  /-- A minus sign follows the colon. -/
  | negativeLine
  | badLine (text : String)
  | badColumn (text : String)
  | zeroLine
  | zeroColumn
  deriving DecidableEq, Repr, Inhabited

namespace LocationError

def message : LocationError → String
  | empty => "Location cannot be empty"
  | noPosition =>
    "Invalid location format. Expected: file:line[:column]\nExample: src/main.rs:10:5"
  | negativeLine => "Invalid line number: line numbers are 1-indexed positive integers"
  | badLine text => "Invalid line number '" ++ text ++ "': must be a positive integer"
  | badColumn text => "Invalid column number '" ++ text ++ "': must be a positive integer"
  | zeroLine => "Line number must be >= 1 (got 0)"
  | zeroColumn => "Column number must be >= 1 (got 0)"

end LocationError

namespace Location

def isLetter (c : Char) : Bool :=
  ('a' ≤ c && c ≤ 'z') || ('A' ≤ c && c ≤ 'Z')

/-- Whether a position may begin with a character. -/
def beginsPosition (c : Char) : Bool :=
  Numeral.isDigit c || c == '-'

/-- The file before the first colon that ends it, and what follows the colon. -/
def splitFile : List Char → Option (List Char × List Char)
  | [] => none
  | c :: rest =>
    if c = ':' ∧ rest.head?.any beginsPosition then some ([], rest)
    else (splitFile rest).map fun (file, position) => (c :: file, position)

/-- The same, past the name of a drive. -/
def splitFileOrDrive : List Char → Option (List Char × List Char)
  | a :: ':' :: c :: rest =>
    if isLetter a then
      (splitFile (c :: rest)).map fun (file, position) => (a :: ':' :: file, position)
    else splitFile (a :: ':' :: c :: rest)
  | cs => splitFile cs

/-- A number of 32 bits. -/
def number? (cs : List Char) : Option Nat :=
  Numeral.natural? Numeral.maxWord32 (String.ofList cs)

/-- The line and the column of a position; the column may be missing. -/
def readPosition (position : List Char) : Except LocationError (Nat × Nat) := do
  let (lineText, columnText) := match Text.splitOnce ':' position with
    | some (line, column) => (line, some column)
    | none => (position, none)
  let line ← match number? lineText with
    | some line => pure line
    | none => throw (.badLine (String.ofList lineText))
  let column ← match columnText.map fun text => (text, number? text) with
    | none => pure 1
    | some (_, some column) => pure column
    | some (text, none) => throw (.badColumn (String.ofList text))
  if line = 0 then throw .zeroLine
  else if column = 0 then throw .zeroColumn
  else return (line, column)

def parse (input : String) : Except LocationError Location := do
  let cs := Text.trimChars input.toList
  if cs.isEmpty then throw .empty
  match splitFileOrDrive cs with
  | none => throw .noPosition
  | some (file, position) =>
    if position.head? = some '-' then throw .negativeLine
    let (line, column) ← readPosition position
    return ⟨String.ofList file, UInt32.ofNat line, UInt32.ofNat column⟩

def position (l : Location) : Position :=
  .ofUser l.line l.column

end Location

end LanguageClient
