import LanguageClient.Document.Position
/-!
# Documents

The documents of the editor and what happens to them.  The client only watches: it never changes a
document, it is told of every event that concerns one.

A document that nobody has open has no version; on the wire it has the version −1, and every
negative version is read as none.
-/

namespace LanguageClient

/-! ## Versions -/

/-- The version of a document, as far as there is one. -/
inductive DocumentVersion where
  | known (n : Int32)
  | unknown
  deriving DecidableEq, Repr, Inhabited

namespace DocumentVersion

/-- The version that stands for none on the wire. -/
def unknownNumber : Int32 := -1

def toInt32 : DocumentVersion → Int32
  | known n => n
  | unknown => unknownNumber

/-- The version that a number on the wire stands for. -/
def ofInt32 (n : Int32) : DocumentVersion :=
  if n < 0 then unknown else known n

def isKnown : DocumentVersion → Bool
  | known _ => true
  | unknown => false

def text : DocumentVersion → String
  | known n => toString n.toInt
  | unknown => "unknown"

instance : Payload DocumentVersion where
  toJson v := toJson v.toInt32
  ofJson v := (ofJson v : Decoded Int32).map ofInt32

end DocumentVersion

/-! ## Documents and their changes -/

/-- A document as the editor holds it. -/
structure Document where
  uri : String
  languageId : String
  version : Int32
  text : String
  deriving DecidableEq, Repr, Inhabited

/-- One change of a text: of the part in `range`, or of the whole text when there is no range. -/
structure TextChange where
  range : Option Range := none
  rangeLength : Option UInt32 := none
  text : String
  deriving DecidableEq, Repr, Inhabited

namespace TextChange

/-- The change that puts a new text in the place of the whole one. -/
def full (text : String) : TextChange :=
  { text }

instance : Payload TextChange where
  toJson c := .object (Json.present "range" c.range
    ++ Json.present "rangeLength" c.rangeLength ++ [("text", toJson c.text)])
  ofJson := Json.readRecord (do
    let range ← .optional "range"
    let rangeLength ← .optional "rangeLength"
    let text ← .field "text"
    return { range, rangeLength, text }) "TextChange"

end TextChange

/-- What an edit made of a document: the changes one by one, and the text they lead to. -/
structure DocumentChange where
  uri : String
  version : Int32
  changes : List TextChange
  text : String
  deriving DecidableEq, Repr, Inhabited

/-! ## Events -/

/-- Why a document is saved. -/
inductive SaveReason where
  | manual
  | afterDelay
  | focusOut
  deriving DecidableEq, Repr, Inhabited

namespace SaveReason

def number : SaveReason → Int
  | manual => 1
  | afterDelay => 2
  | focusOut => 3

def ofNumber? : Int → Option SaveReason
  | 1 => some manual
  | 2 => some afterDelay
  | 3 => some focusOut
  | _ => none

end SaveReason

/-- Reads one of several numbers that stand for a value each. -/
def readNumbered {α : Type} (of? : Int → Option α) (choices : String) (v : Json) : Decoded α :=
  match (ofJson v : Decoded UInt8) with
  | .error e => .error e
  | .ok n =>
    match of? n.toNat with
    | some x => .ok x
    | none => .error (.outOfRange n.toNat choices)

instance : Payload SaveReason where
  toJson r := .int r.number
  ofJson := readNumbered SaveReason.ofNumber? "one of: 1, 2, 3"

/-- What happens to a document in the editor. -/
inductive DocumentEvent where
  | opened (document : Document)
  | changed (change : DocumentChange)
  | willSave (uri : String) (reason : SaveReason)
  /-- The document was saved; `text` is given when the editor has it at hand. -/
  | saved (uri : String) (text : Option String)
  | closed (uri : String)
  deriving DecidableEq, Repr, Inhabited

namespace DocumentEvent

def uri : DocumentEvent → String
  | opened document => document.uri
  | changed change => change.uri
  | willSave uri _ => uri
  | saved uri _ => uri
  | closed uri => uri

end DocumentEvent

end LanguageClient
