import LanguageClient.Json.Basic
import LanguageClient.Text.Numeral
/-!
# Reading JSON text

A recursive descent reader over the characters of a text.

* Blanks are the space, the tab, the line feed and the carriage return.
* A number without point and exponent that fits a signed or an unsigned 64-bit integer is an
  integer, `-0` excepted; every other number is a floating point number, and one that is out of
  range is refused.
* An escaped surrogate is refused unless it is the first half of a pair.
* At most 127 arrays and objects may be nested.
* Of several members of one name the last is kept.

Every function answers with what it read and the characters after it.  The reader of values takes
fuel for its recursion; `Json.parse?` gives it the length of the text, and each step consumes one
character at least.
-/

namespace LanguageClient.Json

/-- A blank of JSON text. -/
def isSpace (c : Char) : Bool :=
  c == ' ' || c == '\t' || c == '\n' || c == '\r'

/-- The characters from the first that is no blank. -/
def skipSpace (cs : List Char) : List Char :=
  cs.dropWhile isSpace

/-! ## Numbers -/

/-- Reads the digits of a significand while it stays below `2 ^ 64`.  The answer is the significand,
    the number of digits read, the number of digits that did not fit, and the rest. -/
def readDigits (significand read dropped : Nat) : List Char → Nat × Nat × Nat × List Char
  | [] => (significand, read, dropped, [])
  | c :: rest =>
    match Numeral.digit? c with
    | none => (significand, read, dropped, c :: rest)
    | some d =>
      -- once a digit did not fit, no later one is taken
      if dropped = 0 ∧ significand * 10 + d ≤ Numeral.maxWord64 then
        readDigits (significand * 10 + d) (read + 1) 0 rest
      else readDigits significand read (dropped + 1) rest

/-- Reads an exponent after its letter: an optional sign and digits. -/
def readExponent : List Char → Option (Bool × Nat × List Char)
  | cs =>
    let (negative, cs) := match cs with
      | '+' :: rest => (false, rest)
      | '-' :: rest => (true, rest)
      | cs => (false, cs)
    match cs.takeWhile Numeral.isDigit with
    | [] => none
    | ds => (Numeral.digits? ds).map fun n => (negative, n, cs.dropWhile Numeral.isDigit)

/-- The largest exponent that is told apart from still larger ones. -/
def maxExponent : Nat := 2147483647

/-- The number `significand · 10 ^ scale`, scaled once more by what an exponent part says. -/
def finishFloat (negative : Bool) (significand : Nat) (scale : Int) :
    List Char → Option (Json × List Char)
  | c :: rest =>
    if c = 'e' ∨ c = 'E' then
      (readExponent rest).bind fun (down, n, rest) =>
        let x := if maxExponent < n then
            if significand ≠ 0 ∧ !down then none else Binary64.ofParts? negative 0 0
          else Binary64.ofDecimal? negative significand (if down then scale - n else scale + n)
        x.map fun x => (float x, rest)
    else (Binary64.ofDecimal? negative significand scale).map fun x => (float x, c :: rest)
  | [] => (Binary64.ofDecimal? negative significand scale).map fun x => (float x, [])

/-- Reads what follows the digits of the integer part, `dropped` of which did not fit. -/
def readFraction (negative : Bool) (significand dropped : Nat) :
    List Char → Option (Json × List Char)
  | '.' :: rest =>
    -- fraction digits that do not fit are read over and do not count
    let (significand, read, skipped, rest) := readDigits significand 0 0 rest
    if read = 0 ∧ skipped = 0 then none
    else finishFloat negative significand ((dropped : Int) - read) rest
  | rest => finishFloat negative significand dropped rest

/-- Reads a number after its sign. -/
def readNumber (negative : Bool) (cs : List Char) : Option (Json × List Char) :=
  match cs with
  | [] => none
  | c :: tail =>
    if !Numeral.isDigit c then none
    else if c = '0' ∧ (tail.head?.map Numeral.isDigit).getD false then none
    else
      let (significand, _, dropped, rest) := readDigits 0 0 0 cs
      let goesOn := match rest with
        | d :: _ => d == '.' || d == 'e' || d == 'E'
        | [] => false
      if !goesOn && dropped == 0 then
        if !negative then some (int significand, rest)
        else if 0 < significand ∧ significand ≤ 9223372036854775808 then
          some (int (-significand), rest)
        else (Binary64.ofDecimal? true significand 0).map fun x => (float x, rest)
      else readFraction negative significand dropped rest

/-! ## Strings -/

/-- The value of four hexadecimal digits. -/
def readHex4 : List Char → Option (Nat × List Char)
  | a :: b :: c :: d :: rest => do
    let a ← Numeral.hexDigit? a
    let b ← Numeral.hexDigit? b
    let c ← Numeral.hexDigit? c
    let d ← Numeral.hexDigit? d
    some (((a * 16 + b) * 16 + c) * 16 + d, rest)
  | _ => none

/-- The character that the digits of a `u` escape stand for; a first half of a pair takes the
    escape of the second half with it. -/
def readUnicode (cs : List Char) : Option (Char × List Char) := do
  let (n, rest) ← readHex4 cs
  if 0xD800 ≤ n ∧ n < 0xDC00 then
    match rest with
    | '\\' :: 'u' :: rest => do
      let (m, rest) ← readHex4 rest
      if 0xDC00 ≤ m ∧ m < 0xE000 then
        some (Char.ofNat (0x10000 + (n - 0xD800) * 0x400 + (m - 0xDC00)), rest)
      else none
    | _ => none
  else if 0xDC00 ≤ n ∧ n < 0xE000 then none
  else some (Char.ofNat n, rest)

/-- The character an escape stands for, after its backslash. -/
def readEscape : List Char → Option (Char × List Char)
  | '"' :: rest => some ('"', rest)
  | '\\' :: rest => some ('\\', rest)
  | '/' :: rest => some ('/', rest)
  | 'b' :: rest => some ('\x08', rest)
  | 'f' :: rest => some ('\x0c', rest)
  | 'n' :: rest => some ('\n', rest)
  | 'r' :: rest => some ('\r', rest)
  | 't' :: rest => some ('\t', rest)
  | 'u' :: rest => readUnicode rest
  | _ => none

/-- Reads a string after its opening quotation mark, the characters read so far in reverse. -/
def readString (fuel : Nat) (read : List Char) (cs : List Char) : Option (String × List Char) :=
  match fuel, cs with
  | _, '"' :: rest => some (String.ofList read.reverse, rest)
  | fuel + 1, '\\' :: rest =>
    (readEscape rest).bind fun (c, rest) => readString fuel (c :: read) rest
  | fuel + 1, c :: rest => if c.toNat < 0x20 then none else readString fuel (c :: read) rest
  | _, _ => none

/-! ## Values -/

mutual

/-- Reads a value; `depth` more arrays and objects may be opened. -/
def readValue (fuel depth : Nat) (cs : List Char) : Option (Json × List Char) :=
  match fuel with
  | 0 => none
  | fuel + 1 =>
    match skipSpace cs with
    | 'n' :: 'u' :: 'l' :: 'l' :: rest => some (null, rest)
    | 't' :: 'r' :: 'u' :: 'e' :: rest => some (bool true, rest)
    | 'f' :: 'a' :: 'l' :: 's' :: 'e' :: rest => some (bool false, rest)
    | '"' :: rest => (readString rest.length [] rest).map fun (s, rest) => (str s, rest)
    | '-' :: rest => readNumber true rest
    | '[' :: rest =>
      match depth with
      | 0 => none
      | depth + 1 =>
        match skipSpace rest with
        | ']' :: rest => some (arr [], rest)
        | cs => readItems fuel depth [] cs
    | '{' :: rest =>
      match depth with
      | 0 => none
      | depth + 1 =>
        match skipSpace rest with
        | '}' :: rest => some (obj [], rest)
        | cs => readMembers fuel depth [] cs
    | cs => readNumber false cs

/-- Reads the items of an array up to its bracket, those already read in reverse. -/
def readItems (fuel depth : Nat) (read : List Json) (cs : List Char) : Option (Json × List Char) :=
  match fuel with
  | 0 => none
  | fuel + 1 =>
    match readValue fuel depth cs with
    | none => none
    | some (v, rest) =>
      match skipSpace rest with
      | ',' :: rest => readItems fuel depth (v :: read) rest
      | ']' :: rest => some (arr (v :: read).reverse, rest)
      | _ => none

/-- Reads the members of an object up to its brace, those already read in reverse. -/
def readMembers (fuel depth : Nat) (read : List (String × Json)) (cs : List Char) :
    Option (Json × List Char) :=
  match fuel with
  | 0 => none
  | fuel + 1 =>
    match skipSpace cs with
    | '"' :: rest =>
      match readString rest.length [] rest with
      | none => none
      | some (key, rest) =>
        match skipSpace rest with
        | ':' :: rest =>
          match readValue fuel depth rest with
          | none => none
          | some (v, rest) =>
            match skipSpace rest with
            | ',' :: rest => readMembers fuel depth ((key, v) :: read) rest
            | '}' :: rest => some (object ((key, v) :: read).reverse, rest)
            | _ => none
        | _ => none
    | _ => none

end

/-- The number of arrays and objects that may be nested. -/
def maxDepth : Nat := 127

/-- The value of a text that holds one value and nothing else but blanks. -/
def parseChars? (cs : List Char) : Option Json :=
  match readValue (cs.length + 1) maxDepth cs with
  | some (v, rest) => if (skipSpace rest).isEmpty then some v else none
  | none => none

/-- The value of a JSON text. -/
def parse? (s : String) : Option Json :=
  parseChars? s.toList

end LanguageClient.Json
