import LanguageClient.Text.Numeral
/-!
# Blanks, strings and keys of TOML

The parts of a TOML text that hold no values.  Every reader answers with what it read and the
characters after it, or none when the text is not well formed.

A string stands between quotation marks, where backslashes escape, or between apostrophes, where
nothing does; with three of either it may span lines.  An end of line in a string is a line feed,
however it was written.
-/

namespace LanguageClient.Toml

/-! ## Blanks -/

/-- A blank within a line. -/
def isSpace (c : Char) : Bool :=
  c == ' ' || c == '\t'

def skipSpace (cs : List Char) : List Char :=
  cs.dropWhile isSpace

/-- Whether a character may stand in a comment, or as itself in a string. -/
def isPlain (c : Char) : Bool :=
  c == '\t' || (0x20 ≤ c.toNat && c.toNat != 0x7F)

/-- What follows an end of line. -/
def readNewline : List Char → Option (List Char)
  | '\n' :: rest => some rest
  | '\r' :: '\n' :: rest => some rest
  | _ => none

/-- What follows a comment, if there is one. -/
def skipComment : List Char → List Char
  | '#' :: rest => rest.dropWhile isPlain
  | cs => cs

/-- What follows the end of a line on which nothing but a comment is left. -/
def readLineEnd (cs : List Char) : Option (List Char) :=
  match skipComment (skipSpace cs) with
  | [] => some []
  | cs => readNewline cs

/-- What follows blanks, comments and ends of lines.  Each step takes characters off the text, so
    that its length is fuel enough. -/
def skipLines (fuel : Nat) (cs : List Char) : List Char :=
  match fuel with
  | 0 => cs
  | fuel + 1 =>
    let cs := skipComment (skipSpace cs)
    match readNewline cs with
    | some rest => skipLines fuel rest
    | none => cs

/-- What follows blanks, comments and ends of lines. -/
def skipBlank (cs : List Char) : List Char :=
  skipLines cs.length cs

/-- What follows blanks and ends of lines; without comments. -/
def skipWhite (fuel : Nat) (cs : List Char) : List Char :=
  match fuel with
  | 0 => cs
  | fuel + 1 =>
    match readNewline (skipSpace cs) with
    | some rest => skipWhite fuel rest
    | none => skipSpace cs

/-! ## Strings -/

/-- The character with the number that hexadecimal digits tell. -/
def readScalar (count : Nat) (cs : List Char) : Option (Char × List Char) := do
  let digits := cs.take count
  if digits.length < count then none
  let n ← digits.foldlM (fun acc c => (Numeral.hexDigit? c).map fun d => acc * 16 + d) 0
  if n < 0xD800 ∨ (0xE000 ≤ n ∧ n < 0x110000) then some (Char.ofNat n, cs.drop count) else none

/-- The character an escape stands for, after its backslash. -/
def readEscape : List Char → Option (Char × List Char)
  | 'b' :: rest => some ('\x08', rest)
  | 't' :: rest => some ('\t', rest)
  | 'n' :: rest => some ('\n', rest)
  | 'f' :: rest => some ('\x0c', rest)
  | 'r' :: rest => some ('\r', rest)
  | '"' :: rest => some ('"', rest)
  | '\\' :: rest => some ('\\', rest)
  | 'u' :: rest => readScalar 4 rest
  | 'U' :: rest => readScalar 8 rest
  | _ => none

/-- Reads a string up to its quotation mark, the characters read so far in reverse. -/
def readBasic (fuel : Nat) (read cs : List Char) : Option (String × List Char) :=
  match fuel, cs with
  | _, '"' :: rest => some (String.ofList read.reverse, rest)
  | fuel + 1, '\\' :: rest => (readEscape rest).bind fun (c, rest) => readBasic fuel (c :: read) rest
  | fuel + 1, c :: rest => if isPlain c then readBasic fuel (c :: read) rest else none
  | _, _ => none

/-- Reads a string up to its apostrophe. -/
def readLiteral (cs : List Char) : Option (String × List Char) :=
  let text := cs.takeWhile fun c => isPlain c && c != '\''
  match cs.drop text.length with
  | '\'' :: rest => some (String.ofList text, rest)
  | _ => none

/-- Reads a string of several lines up to its three marks.  One or two marks before those belong to
    the string.  With quotation marks, backslashes escape, and one at the end of a line takes all
    blanks after it away. -/
def readMultiline (mark : Char) (fuel : Nat) (read cs : List Char) : Option (String × List Char) :=
  match fuel, cs with
  | 0, _ => none
  | _, [] => none
  | fuel + 1, c :: rest =>
    if c = mark then
      let marks := (c :: rest).takeWhile (· == mark)
      let after := (c :: rest).drop marks.length
      if marks.length < 3 then readMultiline mark fuel (marks ++ read) after
      else if marks.length ≤ 5 then
        some (String.ofList ((marks.drop 3) ++ read).reverse, after)
      else none
    else if c = '\\' ∧ mark = '"' then
      match readNewline (skipSpace rest) with
      | some after => readMultiline mark fuel read (skipWhite after.length after)
      | none => (readEscape rest).bind fun (e, rest) => readMultiline mark fuel (e :: read) rest
    else
      match readNewline (c :: rest) with
      | some after => readMultiline mark fuel ('\n' :: read) after
      | none => if isPlain c then readMultiline mark fuel (c :: read) rest else none

/-- What follows the end of line right after the marks that open a string of several lines. -/
def skipFirstNewline (cs : List Char) : List Char :=
  (readNewline cs).getD cs

/-- Reads a string of any kind. -/
def readString : List Char → Option (String × List Char)
  | '"' :: '"' :: '"' :: rest => readMultiline '"' (rest.length + 1) [] (skipFirstNewline rest)
  | '\'' :: '\'' :: '\'' :: rest => readMultiline '\'' (rest.length + 1) [] (skipFirstNewline rest)
  | '"' :: rest => readBasic rest.length [] rest
  | '\'' :: rest => readLiteral rest
  | _ => none

/-! ## Keys -/

/-- Whether a character may stand in a key without marks. -/
def isBare (c : Char) : Bool :=
  ('a' ≤ c && c ≤ 'z') || ('A' ≤ c && c ≤ 'Z') || Numeral.isDigit c || c == '-' || c == '_'

/-- Reads one key. -/
def readSimpleKey : List Char → Option (String × List Char)
  | '"' :: rest => readBasic rest.length [] rest
  | '\'' :: rest => readLiteral rest
  | cs =>
    match cs.takeWhile isBare with
    | [] => none
    | key => some (String.ofList key, cs.dropWhile isBare)

/-- Reads keys between dots and the blanks around them, those already read in reverse. -/
def readKeys (fuel : Nat) (read : List String) (cs : List Char) :
    Option (List String × List Char) :=
  match fuel with
  | 0 => none
  | fuel + 1 =>
    match readSimpleKey (skipSpace cs) with
    | none => none
    | some (key, rest) =>
      match skipSpace rest with
      | '.' :: rest => readKeys fuel (key :: read) rest
      | rest => some ((key :: read).reverse, rest)

/-- How many keys may stand between dots, and how many values may be nested. -/
def maxDepth : Nat := 79

/-- Reads a key that may be made of several. -/
def readKey (cs : List Char) : Option (List String × List Char) :=
  (readKeys (cs.length + 1) [] cs).filter fun (keys, _) => keys.length ≤ maxDepth

end LanguageClient.Toml
