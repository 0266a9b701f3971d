import LanguageClient.Json.Basic
import LanguageClient.Text.Numeral
/-!
# Values with a JSON form

`Payload α` is the JSON form of a type: `toJson` writes a value and `ofJson` reads one, or says why
there is none.  The instances here are those of the simple types.

A record is written as an object.  It is read from an object by the names of its members, where
unknown members do not count, or from an array by their order, where every place has to be filled
and nothing may follow.  `RecordReader` reads both: `field` wants a member, `optional` takes an
absent member or `null` for none, and `defaulted` has a value for an absent one.
-/

namespace LanguageClient

/-- Why a JSON value is no value of a type. -/
inductive DecodeError where
  /-- The value is of another kind than the type is read from. -/
  | wrongKind (found expected : String)
  /-- The integer does not fit the type. -/
  | outOfRange (n : Int) (expected : String)
  /-- A member is not there. -/
  | missing (member : String)
  /-- The array has items after the last member. -/
  | tooLong (length : Nat)
  /-- None of several alternatives reads the value. -/
  | noAlternative (type : String)
  deriving DecidableEq, Repr

namespace DecodeError

def message : DecodeError → String
  | wrongKind found expected => "invalid type: " ++ found ++ ", expected " ++ expected
  | outOfRange n expected => "invalid value: integer \x60" ++ toString n ++ "\x60, expected " ++ expected
  | missing member => "missing field \x60" ++ member ++ "\x60"
  | tooLong length => "invalid length " ++ toString length ++ ", expected fewer elements in array"
  | noAlternative type => "data did not match any variant of untagged enum " ++ type

end DecodeError

/-- Reading a value, or the reason why there is none. -/
abbrev Decoded (α : Type) := Except DecodeError α

namespace Json

/-- A value as a complaint about it describes it. -/
def kindText : Json → String
  | null => "null"
  | bool b => "boolean \x60" ++ toString b ++ "\x60"
  | int n => "integer \x60" ++ toString n ++ "\x60"
  | float x => "floating point \x60" ++ x.text ++ "\x60"
  | str s => "string \"" ++ s ++ "\""
  | arr _ => "sequence"
  | obj _ => "map"

/-- The complaint that a value is of the wrong kind. -/
def refuse {α : Type} (v : Json) (expected : String) : Decoded α :=
  .error (.wrongKind v.kindText expected)

end Json

/-- A type whose values have a JSON form. -/
class Payload (α : Type) where
  toJson : α → Json
  ofJson : Json → Decoded α

export Payload (toJson ofJson)

instance : Payload Json where
  toJson v := v
  ofJson v := .ok v

instance : Payload String where
  toJson s := .str s
  ofJson
    | .str s => .ok s
    | v => v.refuse "a string"

instance : Payload Bool where
  toJson b := .bool b
  ofJson
    | .bool b => .ok b
    | v => v.refuse "a boolean"

/-- Reads an integer between two bounds. -/
def integerBetween (low high : Int) (name : String) : Json → Decoded Int
  | .int n => if low ≤ n ∧ n ≤ high then .ok n else .error (.outOfRange n name)
  | v => v.refuse name

instance : Payload UInt8 where
  toJson n := .int n.toNat
  ofJson v := (integerBetween 0 255 "u8" v).map fun n => UInt8.ofNat n.toNat

instance : Payload UInt32 where
  toJson n := .int n.toNat
  ofJson v := (integerBetween 0 4294967295 "u32" v).map fun n => UInt32.ofNat n.toNat

instance : Payload UInt64 where
  toJson n := .int n.toNat
  ofJson v := (integerBetween 0 18446744073709551615 "u64" v).map fun n => UInt64.ofNat n.toNat

instance : Payload Int32 where
  toJson n := .int n.toInt
  ofJson v := (integerBetween (-2147483648) 2147483647 "i32" v).map Int32.ofInt

instance {α : Type} [Payload α] : Payload (List α) where
  toJson xs := .arr (xs.map toJson)
  ofJson
    | .arr items => items.mapM ofJson
    | v => v.refuse "a sequence"

instance {α : Type} [Payload α] : Payload (Option α) where
  toJson
    | some x => toJson x
    | none => .null
  ofJson
    | .null => .ok none
    | v => (ofJson v).map some

/-! ## Records -/

/-- What is left to read of a record: members by name, or items by place. -/
inductive Members where
  | named (members : List (String × Json))
  | listed (items : List Json)

/-- Reads a part of a record. -/
abbrev RecordReader (α : Type) := StateT Members (Except DecodeError) α

namespace RecordReader

variable {α : Type}

/-- Takes the value of the next member, if there is one. -/
def take? (name : String) : RecordReader (Option Json)
  | .named members => .ok (members.lookup name, .named members)
  | .listed (v :: items) => .ok (some v, .listed items)
  | .listed [] => .ok (none, .listed [])

def isListed : RecordReader Bool
  | .named members => .ok (false, .named members)
  | .listed items => .ok (true, .listed items)

/-- A member that has to be there. -/
def field [Payload α] (name : String) : RecordReader α := do
  match ← take? name with
  | some v => (ofJson v : Decoded α)
  | none => throw (.missing name)

/-- A member that may be absent or `null`; by place it has to be there. -/
def optional [Payload α] (name : String) : RecordReader (Option α) := do
  match ← take? name with
  | some v => (ofJson v : Decoded (Option α))
  | none => if ← isListed then throw (.missing name) else pure none

/-- A member with a value of its own when it is absent. -/
def defaulted [Payload α] (name : String) (value : α) : RecordReader α := do
  match ← take? name with
  | some v => (ofJson v : Decoded α)
  | none => pure value

end RecordReader

namespace Json

variable {α : Type}

/-- Reads a record from an object or an array. -/
def readRecord (reader : RecordReader α) (name : String) : Json → Decoded α
  | obj members => (reader.run (.named members)).map (·.1)
  | arr items =>
    match reader.run (.listed items) with
    | .ok (x, .listed []) => .ok x
    | .ok _ => .error (.tooLong items.length)
    | .error e => .error e
  | v => v.refuse name

/-- Reads a record that some other record is part of, from an object only. -/
def readOpenRecord (reader : RecordReader α) (name : String) : Json → Decoded α
  | obj members => (reader.run (.named members)).map (·.1)
  | v => v.refuse name

/-- A member that is written when it has a value. -/
def present [Payload α] (name : String) : Option α → List (String × Json)
  | some x => [(name, toJson x)]
  | none => []

end Json

end LanguageClient
