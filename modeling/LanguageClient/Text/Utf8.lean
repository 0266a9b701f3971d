/-!
# UTF-8

Octets and characters.  `Utf8.encode` writes a text as octets.  Reading runs a machine one octet
at a time: between characters, or inside one with the octets still owed and the range the next
octet may come from.  An octet outside that range ends the piece read so far, which stands for no
character, and is itself read again as the start of a new one.

* `Utf8.pieces` is what the machine reads: a character, or `none` for a piece that is none.
* `Utf8.decodeLossy` shows each such piece as one U+FFFD; `Utf8.decode?` refuses the text instead.
-/

namespace LanguageClient.Utf8

def encode (text : List Char) : List UInt8 :=
  text.flatMap String.utf8EncodeChar

def encodeString (s : String) : List UInt8 :=
  encode s.toList

/-- Where the reader stands: between characters, or inside one that still owes `owed + 1` octets,
    the next of them between `low` and `high`; `acc` holds the bits read so far. -/
inductive Reader where
  | between
  | inside (acc owed low high : Nat)
  deriving DecidableEq, Repr

/-- The first octet of a character.  The ranges of the second octet exclude overlong forms,
    surrogates and values above U+10FFFF. -/
def lead (b : UInt8) : Option Char ⊕ Reader :=
  let n := b.toNat
  if n < 0x80 then .inl (some (Char.ofNat n))
  else if n < 0xC2 then .inl none
  else if n < 0xE0 then .inr (.inside (n - 0xC0) 0 0x80 0xBF)
  else if n = 0xE0 then .inr (.inside 0 1 0xA0 0xBF)
  else if n = 0xED then .inr (.inside 0xD 1 0x80 0x9F)
  else if n < 0xF0 then .inr (.inside (n - 0xE0) 1 0x80 0xBF)
  else if n = 0xF0 then .inr (.inside 0 2 0x90 0xBF)
  else if n < 0xF4 then .inr (.inside (n - 0xF0) 2 0x80 0xBF)
  else if n = 0xF4 then .inr (.inside 4 2 0x80 0x8F)
  else .inl none

/-- Reads an octet between characters. -/
def Reader.begin (b : UInt8) : List (Option Char) × Reader :=
  match lead b with
  | .inl piece => ([piece], .between)
  | .inr reader => ([], reader)

/-- Reads one octet: the pieces it completes, and where the reader stands afterwards. -/
def Reader.step : Reader → UInt8 → List (Option Char) × Reader
  | .between, b => Reader.begin b
  | .inside acc owed low high, b =>
    if low ≤ b.toNat ∧ b.toNat ≤ high then
      let acc := acc * 64 + b.toNat % 64
      match owed with
      | 0 => ([some (Char.ofNat acc)], .between)
      | owed + 1 => ([], .inside acc owed 0x80 0xBF)
    else
      let (out, reader) := Reader.begin b
      (none :: out, reader)

/-- What the end of the octets leaves behind. -/
def Reader.finish : Reader → List (Option Char)
  | .between => []
  | .inside .. => [none]

/-- The pieces of an octet sequence, read from the given standing point. -/
def Reader.run : Reader → List UInt8 → List (Option Char)
  | reader, [] => reader.finish
  | reader, b :: rest =>
    let (out, next) := reader.step b
    out ++ Reader.run next rest

/-- Characters and broken pieces of an octet sequence, in order. -/
def pieces (octets : List UInt8) : List (Option Char) :=
  Reader.run .between octets

/-- Reads octets as text; each piece that is no character becomes one U+FFFD. -/
def decodeLossy (octets : List UInt8) : List Char :=
  (pieces octets).map (·.getD '\uFFFD')

/-- Reads octets as text, or refuses them when some piece is no character. -/
def decode? (octets : List UInt8) : Option (List Char) :=
  (pieces octets).mapM id

/-- The string that octets stand for, broken pieces shown as U+FFFD. -/
def lossyString (octets : List UInt8) : String :=
  String.ofList (decodeLossy octets)

/-- The string that octets stand for, if they are UTF-8. -/
def string? (octets : List UInt8) : Option String :=
  (decode? octets).map String.ofList

def size (s : String) : Nat :=
  s.utf8ByteSize

end LanguageClient.Utf8
