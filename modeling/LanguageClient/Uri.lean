import LanguageClient.Text.Utf8
import LanguageClient.Path
/-!
# File URIs

`Uri.ofPath` writes an absolute path behind `file://`.  Letters, digits and `/ . - _ ~` stand for
themselves; of every other character each octet is written as `%` and two upper-case hexadecimal
digits.

`Uri.toPath?` reads such a URI.  A `%` takes the two octets after it, whatever they are: if both are
hexadecimal digits the three stand for one octet, and otherwise the `%` alone is kept.
-/

namespace LanguageClient.Uri

/-! ## Writing -/

/-- Whether a character stands for itself. -/
def isPlain (c : Char) : Bool :=
  c == '/' || c == '.' || c == '-' || c == '_' || c == '~'
    || ('a' ≤ c && c ≤ 'z') || ('A' ≤ c && c ≤ 'Z') || ('0' ≤ c && c ≤ '9')

/-- An upper-case hexadecimal digit. -/
def hexDigit (n : Nat) : Char :=
  if n < 10 then Char.ofNat (48 + n) else Char.ofNat (55 + n)

def escapeOctet (b : UInt8) : List Char :=
  ['%', hexDigit (b.toNat / 16), hexDigit (b.toNat % 16)]

def encodeChar (c : Char) : List Char :=
  if isPlain c then [c] else (String.utf8EncodeChar c).flatMap escapeOctet

/-- A text as it stands in a URI. -/
def encode (text : List Char) : List Char :=
  text.flatMap encodeChar

/-- The directory that relative paths are seen from. -/
def workingDirectory : String := "/"

/-- The scheme and the empty authority of a file URI. -/
def fileScheme : String := "file://"

def ofPath (path : String) : String :=
  let path := if Path.isAbsolute path then path else Path.join workingDirectory path
  fileScheme ++ String.ofList (encode path.toList)

/-! ## Reading -/

/-- The value of an octet that is a hexadecimal digit. -/
def hexValue (b : UInt8) : Option UInt8 :=
  if 0x30 ≤ b ∧ b ≤ 0x39 then some (b - 0x30)
  else if 0x41 ≤ b ∧ b ≤ 0x46 then some (b - 0x37)
  else if 0x61 ≤ b ∧ b ≤ 0x66 then some (b - 0x57)
  else none

/-- The octets that an escaped octet sequence stands for. -/
def unescape : List UInt8 → List UInt8
  | [] => []
  | [b] => [b]
  | [b, c] => if b = 0x25 then [b] else b :: unescape [c]
  | b :: c :: d :: rest =>
    if b = 0x25 then
      match hexValue c, hexValue d with
      | some h, some l => (h * 16 + l) :: unescape rest
      | _, _ => b :: unescape rest
    else b :: unescape (c :: d :: rest)

/-- The text that an escaped text stands for; octets that are no text show as U+FFFD. -/
def decode (text : List Char) : List Char :=
  Utf8.decodeLossy (unescape (Utf8.encode text))

/-- The path a file URI stands for. -/
def toPath? (uri : String) : Option String :=
  (Text.dropPrefix? fileScheme.toList uri.toList).map fun rest => String.ofList (decode rest)

/-- The scheme of a URI: what comes before its first colon. -/
def scheme? (uri : String) : Option String :=
  (Text.splitOnce ':' uri.toList).map fun (scheme, _) => String.ofList scheme

end LanguageClient.Uri
