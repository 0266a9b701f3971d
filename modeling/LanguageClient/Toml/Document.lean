import LanguageClient.Json.Printer
import LanguageClient.Toml.Scalar
import LanguageClient.Toml.Table
import LanguageClient.Toml.Text
/-!
# Documents of TOML

A document is read line by line: a line opens a table or gives a key a value.  The result is the
table of the document as an object.

The readers of values take fuel for their recursion; each step takes one character at least off the
text, so that its length is enough.  At most `maxDepth` arrays and tables within lines may be nested.

A document is written in sections: an object is a table of its own, and so is every object of an array.
An array of several items has each of them on a line.
-/

namespace LanguageClient.Toml

/-! ## Reading -/

/-- The path to the table of a key, and its last part. -/
def splitKey (keys : List String) : Option (List String × String) :=
  keys.getLast?.map fun key => (keys.dropLast, key)

mutual

/-- Reads a value. -/
def readValue (fuel depth : Nat) (cs : List Char) : Option (Json × List Char) :=
  match fuel with
  | 0 => none
  | fuel + 1 =>
    match cs with
    | '"' :: _ | '\'' :: _ => (readString cs).map fun (s, rest) => (.str s, rest)
    | '[' :: rest =>
      match depth with
      | 0 => none
      | depth + 1 => readItems fuel depth [] rest
    | '{' :: rest =>
      match depth with
      | 0 => none
      | depth + 1 =>
        match skipSpace rest with
        | '}' :: rest => some (.obj [], rest)
        | rest => readMembers fuel depth [] rest
    | cs => readScalarValue cs

/-- Reads the items of an array up to its bracket, those already read in reverse. -/
def readItems (fuel depth : Nat) (read : List Json) (cs : List Char) : Option (Json × List Char) :=
  match fuel with
  | 0 => none
  | fuel + 1 =>
    match skipBlank cs with
    | ']' :: rest => some (.arr read.reverse, rest)
    | cs =>
      match readValue fuel depth cs with
      | none => none
      | some (v, rest) =>
        match skipBlank rest with
        | ',' :: rest => readItems fuel depth (v :: read) rest
        | ']' :: rest => some (.arr (v :: read).reverse, rest)
        | _ => none

/-- Reads the members of a table within a line up to its brace. -/
def readMembers (fuel depth : Nat) (entries : Entries) (cs : List Char) :
    Option (Json × List Char) :=
  match fuel with
  | 0 => none
  | fuel + 1 =>
    match readKey cs with
    | some (keys, '=' :: rest) =>
      match splitKey keys, readValue fuel depth (skipSpace rest) with
      | some (path, key), some (v, rest) =>
        match entries.give path key v with
        | none => none
        | some entries =>
          match skipSpace rest with
          | ',' :: rest => readMembers fuel depth entries rest
          | '}' :: rest => some (.object (entriesJson entries), rest)
          | _ => none
      | _, _ => none
    | _ => none

end

/-- Reads the key of a table that is opened, up to what closes it, and the end of the line. -/
def readHeader (close cs : List Char) : Option ((List String × String) × List Char) := do
  let (keys, rest) ← readKey cs
  let rest ← Text.dropPrefix? close rest
  let rest ← readLineEnd rest
  let key ← splitKey keys
  some (key, rest)

/-- Reads a line that gives a key a value. -/
def readKeyValue (cs : List Char) : Option ((List String × String) × Json × List Char) :=
  match readKey cs with
  | some (keys, '=' :: rest) => do
    let (v, rest) ← readValue (rest.length + 1) maxDepth (skipSpace rest)
    let rest ← readLineEnd rest
    let key ← splitKey keys
    some (key, v, rest)
  | _ => none

/-- Reads the lines of a document; `place` is the table that was opened last. -/
def readLines (fuel : Nat) (place : List String) (root : Entries) (cs : List Char) :
    Option Entries :=
  match fuel with
  | 0 => none
  | fuel + 1 =>
    match skipSpace cs with
    | [] => some root
    | '[' :: '[' :: rest => do
      let ((path, key), rest) ← readHeader [']', ']'] rest
      readLines fuel (path ++ [key]) (← root.openNext path key) rest
    | '[' :: rest => do
      let ((path, key), rest) ← readHeader [']'] rest
      readLines fuel (path ++ [key]) (← root.openTable path key) rest
    | c :: rest =>
      if c = '#' ∨ c = '\n' ∨ c = '\r' then
        (readLineEnd (c :: rest)).bind fun rest => readLines fuel place root rest
      else do
        let ((path, key), v, rest) ← readKeyValue (c :: rest)
        readLines fuel place (← root.giveAt place path key v) rest

/-- The text without the mark of its encoding. -/
def skipMark : List Char → List Char
  | '\ufeff' :: rest => rest
  | cs => cs

/-- The object that a document describes. -/
def parse? (s : String) : Option Json :=
  let cs := skipMark s.toList
  (readLines (cs.length + 1) [] [] cs).map fun root => .object (entriesJson root)

/-! ## Writing -/

mutual

/-- The text of a value within a line. -/
def valueText : Json → String
  | .arr [] => "[]"
  | .arr [item] => "[" ++ valueText item ++ "]"
  | .arr items => "[\n" ++ itemLines items ++ "]"
  | v => v.render

/-- The lines of the items of an array. -/
def itemLines : List Json → String
  | [] => ""
  | item :: rest => "    " ++ valueText item ++ ",\n" ++ itemLines rest

end

/-- The lines of the members of a table. -/
def memberLines (members : List (String × Json)) : String :=
  "".intercalate (members.map fun (key, v) => key ++ " = " ++ valueText v ++ "\n")

/-- The sections for a member of a document. -/
def sections (key : String) : Json → List String
  | .obj members => ["[" ++ key ++ "]\n" ++ memberLines members]
  | .arr items => items.map fun
    | .obj members => "[[" ++ key ++ "]]\n" ++ memberLines members
    | _ => ""
  | _ => []

/-- The text of a document whose members are tables and arrays of tables. -/
def render (members : List (String × Json)) : String :=
  "\n".intercalate (members.flatMap fun (key, v) => sections key v)

end LanguageClient.Toml
