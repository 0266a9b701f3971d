import LanguageClient.Json.Basic
/-!
# JSON text

`Json.render` writes a value without blanks, members in the order in which the value holds them.
In a string the quotation mark, the backslash and the characters below U+0020 are escaped, five of
those by a letter and the others by four lower-case hexadecimal digits; nothing else is.

`Json.renderIndented` writes every item and every member on a line of its own, two blanks further in
than the brackets around it; an array or object without any stays on one line.
-/

namespace LanguageClient.Json

/-- The escape of a character, or the character itself. -/
def escapeChar (c : Char) : List Char :=
  match c with
  | '"' => ['\\', '"']
  | '\\' => ['\\', '\\']
  | '\x08' => ['\\', 'b']
  | '\x0c' => ['\\', 'f']
  | '\n' => ['\\', 'n']
  | '\r' => ['\\', 'r']
  | '\t' => ['\\', 't']
  | c =>
    if c.toNat < 0x20 then
      ['\\', 'u', '0', '0', Nat.digitChar (c.toNat / 16), Nat.digitChar (c.toNat % 16)]
    else [c]

/-- A string in quotation marks. -/
def quoted (s : String) : List Char :=
  '"' :: s.toList.flatMap escapeChar ++ ['"']

def integerText (n : Int) : List Char :=
  match n with
  | .ofNat n => Nat.toDigits 10 n
  | .negSucc n => '-' :: Nat.toDigits 10 (n + 1)

mutual

/-- The text of a value, followed by `rest`. -/
def write (rest : List Char) : Json → List Char
  | null => 'n' :: 'u' :: 'l' :: 'l' :: rest
  | bool true => 't' :: 'r' :: 'u' :: 'e' :: rest
  | bool false => 'f' :: 'a' :: 'l' :: 's' :: 'e' :: rest
  | int n => integerText n ++ rest
  | float x => x.text.toList ++ rest
  | str s => quoted s ++ rest
  | arr [] => '[' :: ']' :: rest
  | arr (item :: items) => '[' :: write (writeItems rest items) item
  | obj [] => '{' :: '}' :: rest
  | obj ((k, v) :: members) => '{' :: (quoted k ++ ':' :: write (writeMembers rest members) v)

/-- The items after the first of an array, its bracket, and `rest`. -/
def writeItems (rest : List Char) : List Json → List Char
  | [] => ']' :: rest
  | item :: items => ',' :: write (writeItems rest items) item

/-- The members after the first of an object, its brace, and `rest`. -/
def writeMembers (rest : List Char) : List (String × Json) → List Char
  | [] => '}' :: rest
  | (k, v) :: members => ',' :: (quoted k ++ ':' :: write (writeMembers rest members) v)

end

def render (v : Json) : String :=
  String.ofList (write [] v)

/-! ## Plain text -/

/-- The escape of a unit of sixteen bits. -/
def unitEscape (n : Nat) : List Char :=
  ['\\', 'u', Nat.digitChar (n / 4096 % 16), Nat.digitChar (n / 256 % 16),
    Nat.digitChar (n / 16 % 16), Nat.digitChar (n % 16)]

/-- A character in ASCII: any other is escaped by its units of sixteen bits. -/
def asciiChar (c : Char) : List Char :=
  let n := c.toNat
  if n < 0x80 then [c]
  else if n < 0x10000 then unitEscape n
  else unitEscape (0xD800 + (n - 0x10000) / 0x400) ++ unitEscape (0xDC00 + (n - 0x10000) % 0x400)

def renderAscii (v : Json) : String :=
  String.ofList ((write [] v).flatMap asciiChar)

/-! ## Indented text -/

/-- The beginning of a line at a depth. -/
def newLine (depth : Nat) : List Char :=
  '\n' :: List.replicate (2 * depth) ' '

mutual

/-- The text of a value at a depth, followed by `rest`. -/
def writeIndented (depth : Nat) (rest : List Char) : Json → List Char
  | arr [] => '[' :: ']' :: rest
  | arr (item :: items) =>
    '[' :: (newLine (depth + 1)
      ++ writeIndented (depth + 1) (writeItemsIndented depth rest items) item)
  | obj [] => '{' :: '}' :: rest
  | obj ((k, v) :: members) =>
    '{' :: (newLine (depth + 1) ++ quoted k ++ ':' :: ' ' ::
      writeIndented (depth + 1) (writeMembersIndented depth rest members) v)
  | v => write rest v

/-- The items after the first of an array, its bracket, and `rest`. -/
def writeItemsIndented (depth : Nat) (rest : List Char) : List Json → List Char
  | [] => newLine depth ++ ']' :: rest
  | item :: items =>
    ',' :: (newLine (depth + 1)
      ++ writeIndented (depth + 1) (writeItemsIndented depth rest items) item)

/-- The members after the first of an object, its brace, and `rest`. -/
def writeMembersIndented (depth : Nat) (rest : List Char) : List (String × Json) → List Char
  | [] => newLine depth ++ '}' :: rest
  | (k, v) :: members =>
    ',' :: (newLine (depth + 1) ++ quoted k ++ ':' :: ' ' ::
      writeIndented (depth + 1) (writeMembersIndented depth rest members) v)

end

def renderIndented (v : Json) : String :=
  String.ofList (writeIndented 0 [] v)

end LanguageClient.Json
