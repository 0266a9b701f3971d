import LanguageClient.Json.Basic
import LanguageClient.Text.Replace
import LanguageClient.Text.Numeral
/-!
# Numbers and dates of TOML

A value without marks around it is a word: a truth value, a number or a date.  Single underscores
may stand between the digits of a number.  Integers have 64 bits.  A number that is no finite one is
`null`.  A date is an object with one member, which holds its text.
-/

namespace LanguageClient.Toml

/-! ## Numbers -/

/-- The digits of a numeral without the underscores between them. -/
def plainDigits (isDigit : Char → Bool) : List Char → Option (List Char)
  | [] => none
  | [c] => if isDigit c then some [c] else none
  | c :: '_' :: rest => if isDigit c then (plainDigits isDigit rest).map (c :: ·) else none
  | c :: rest => if isDigit c then (plainDigits isDigit rest).map (c :: ·) else none

def valueOf (base : Nat) (digits : List Char) : Nat :=
  digits.foldl (fun acc c => acc * base + (Numeral.hexDigit? c).getD 0) 0

def isDigitOf (base : Nat) (c : Char) : Bool :=
  (Numeral.hexDigit? c).any (· < base)

/-- An integer of 64 bits. -/
def integer? (n : Int) : Option Json :=
  if -9223372036854775808 ≤ n ∧ n ≤ 9223372036854775807 then some (.int n) else none

/-- A sign before a number, and the rest; whether it is a minus sign. -/
def splitSign : List Char → Bool × List Char
  | '+' :: rest => (false, rest)
  | '-' :: rest => (true, rest)
  | cs => (false, cs)

/-- The digits of a decimal numeral without leading zeros. -/
def decimalDigits (cs : List Char) : Option (List Char) :=
  (plainDigits Numeral.isDigit cs).filter fun ds => ds.head? ≠ some '0' ∨ ds.length = 1

/-- The integer that a word stands for. -/
def wordInteger? (word : List Char) : Option Json :=
  let withBase (base : Nat) (cs : List Char) : Option Json :=
    (plainDigits (isDigitOf base) cs).bind fun ds => integer? (valueOf base ds)
  match word with
  | '0' :: 'x' :: rest => withBase 16 rest
  | '0' :: 'o' :: rest => withBase 8 rest
  | '0' :: 'b' :: rest => withBase 2 rest
  | _ =>
    let (negative, cs) := splitSign word
    (decimalDigits cs).bind fun ds =>
      let n : Int := valueOf 10 ds
      integer? (if negative then -n else n)

/-- The floating point number nearest to `digits · 10 ^ exponent`.  What is too large is refused,
    except that below zero it is `null`. -/
def nearest (negative : Bool) (digits : List Char) (exponent : Int) : Option Json :=
  let significand := valueOf 10 digits
  let lead := exponent + (Nat.toDigits 10 significand).length
  let found :=
    if significand = 0 ∨ lead < -400 then Binary64.ofParts? negative 0 0
    else if 400 < lead then none
    else if 0 ≤ exponent then
      Binary64.ofRatio? negative (significand * Nat.pow 10 exponent.toNat) 1
    else Binary64.ofRatio? negative significand (Nat.pow 10 (-exponent).toNat)
  match found with
  | some x => some (.float x)
  | none => if negative then some .null else none

/-- The part of a word before the first of some characters, and what follows that character. -/
def splitAtAny (isMark : Char → Bool) (cs : List Char) : List Char × Option (List Char) :=
  match cs.dropWhile (!isMark ·) with
  | [] => (cs, none)
  | _ :: rest => (cs.takeWhile (!isMark ·), some rest)

/-- The exponent of a number. -/
def exponent? : Option (List Char) → Option Int
  | none => some 0
  | some cs =>
    let (negative, cs) := splitSign cs
    (plainDigits Numeral.isDigit cs).map fun ds =>
      if negative then -(valueOf 10 ds : Int) else valueOf 10 ds

/-- The floating point number that a word stands for. -/
def wordFloat? (word : List Char) : Option Json := do
  let (negative, cs) := splitSign word
  if cs = "inf".toList ∨ cs = "nan".toList then some .null
  else
    let (mantissa, exponentText) := splitAtAny (fun c => c == 'e' || c == 'E') cs
    let (whole, fraction) := splitAtAny (· == '.') mantissa
    if exponentText.isNone && fraction.isNone then none
    else
      let whole ← decimalDigits whole
      let fraction ← match fraction with
        | none => some []
        | some cs => plainDigits Numeral.isDigit cs
      let exponent ← exponent? exponentText
      nearest negative (whole ++ fraction) (exponent - fraction.length)

/-! ## Dates -/

/-- Reads a number of a given count of digits that is at most `bound`. -/
def readNumber (count bound : Nat) (cs : List Char) : Option (List Char × List Char) := do
  let digits := cs.take count
  if digits.length = count ∧ digits.all Numeral.isDigit ∧ valueOf 10 digits ≤ bound then
    some (digits, cs.drop count)
  else none

/-- The days of a month. -/
def daysOf (year month : Nat) : Nat :=
  if month = 2 then if year % 4 = 0 ∧ (year % 100 ≠ 0 ∨ year % 400 = 0) then 29 else 28
  else if [4, 6, 9, 11].contains month then 30
  else 31

/-- Reads a date; the answer has its text. -/
def readDate (cs : List Char) : Option (List Char × List Char) := do
  let (year, rest) ← readNumber 4 9999 cs
  let rest ← Text.dropPrefix? ['-'] rest
  let (month, rest) ← readNumber 2 12 rest
  let rest ← Text.dropPrefix? ['-'] rest
  let (day, rest) ← readNumber 2 31 rest
  let n := valueOf 10 day
  if valueOf 10 month = 0 ∨ n = 0 ∨ daysOf (valueOf 10 year) (valueOf 10 month) < n then none
  else some (year ++ '-' :: month ++ '-' :: day, rest)

/-- The text of a part of a second: at most nine digits, without zeros at the end. -/
def fractionText (digits : List Char) : List Char :=
  match ((digits.take 9).reverse.dropWhile (· == '0')).reverse with
  | [] => []
  | ds => '.' :: ds

/-- Reads a time; the answer has its text. -/
def readTime (cs : List Char) : Option (List Char × List Char) := do
  let (hour, rest) ← readNumber 2 23 cs
  let rest ← Text.dropPrefix? [':'] rest
  let (minute, rest) ← readNumber 2 59 rest
  let rest ← Text.dropPrefix? [':'] rest
  let (second, rest) ← readNumber 2 60 rest
  let text := hour ++ ':' :: minute ++ ':' :: second
  match rest with
  | '.' :: rest =>
    let digits := rest.takeWhile Numeral.isDigit
    if digits.isEmpty then none
    else some (text ++ fractionText digits, rest.dropWhile Numeral.isDigit)
  | rest => some (text, rest)

/-- Reads the distance from universal time, if there is one; the answer has its text. -/
def readOffset (cs : List Char) : Option (List Char × List Char) :=
  match cs with
  | 'Z' :: rest | 'z' :: rest => some (['Z'], rest)
  | c :: rest =>
    if c = '+' ∨ c = '-' then do
      let (hour, rest) ← readNumber 2 23 rest
      let rest ← Text.dropPrefix? [':'] rest
      let (minute, rest) ← readNumber 2 59 rest
      let sign := if valueOf 10 (hour ++ minute) = 0 then '+' else c
      some (sign :: hour ++ ':' :: minute, rest)
    else some ([], cs)
  | [] => some ([], [])

/-- The name under which the text of a date stands. -/
def dateMember : String := "$__toml_private_datetime"

/-- The value of a date. -/
def dateValue (text : List Char) : Json :=
  .object [(dateMember, .str (String.ofList text))]

/-- Reads a time with its distance from universal time. -/
def readTimeAndOffset (cs : List Char) : Option (List Char × List Char) := do
  let (time, rest) ← readTime cs
  let (offset, rest) ← readOffset rest
  some (time ++ offset, rest)

/-- Reads a date, a time, or both; between them stands a letter or a space. -/
def readDateTime (cs : List Char) : Option (Json × List Char) :=
  match readDate cs with
  | none => (readTime cs).map fun (text, rest) => (dateValue text, rest)
  | some (date, rest) =>
    match rest with
    | c :: after =>
      if c = 'T' ∨ c = 't' ∨ c = ' ' then
        match readTimeAndOffset after with
        | some (time, rest) => some (dateValue (date ++ 'T' :: time), rest)
        | none => some (dateValue date, rest)
      else some (dateValue date, rest)
    | [] => some (dateValue date, [])

/-! ## Words -/

/-- Whether a character may stand in a number or a truth value. -/
def isWordChar (c : Char) : Bool :=
  (Numeral.hexDigit? c).isSome || ('a' ≤ c && c ≤ 'z') || ('A' ≤ c && c ≤ 'Z')
    || c == '_' || c == '+' || c == '-' || c == '.'

/-- The value of a word. -/
def wordValue? (word : List Char) : Option Json :=
  if word = "true".toList then some (.bool true)
  else if word = "false".toList then some (.bool false)
  else
    match wordInteger? word with
    | some v => some v
    | none => wordFloat? word

/-- Reads a date, a number or a truth value. -/
def readScalarValue (cs : List Char) : Option (Json × List Char) :=
  match readDateTime cs with
  | some found => some found
  | none => (wordValue? (cs.takeWhile isWordChar)).map fun v => (v, cs.dropWhile isWordChar)

end LanguageClient.Toml
