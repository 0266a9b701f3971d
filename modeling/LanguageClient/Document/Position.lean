import LanguageClient.Json.Payload
/-!
# Places in a document

A position counts lines and characters from zero; a range is the text between two positions, and an
edit puts a new text in its place.
-/

namespace LanguageClient

/-- A place between two characters of a document. -/
structure Position where
  line : UInt32
  character : UInt32
  deriving DecidableEq, Repr, Inhabited

namespace Position

/-- The place that a user names by line and column, both counted from one; a zero counts as one. -/
def ofUser (line column : UInt32) : Position :=
  ⟨UInt32.ofNat (line.toNat - 1), UInt32.ofNat (column.toNat - 1)⟩

instance : Payload Position where
  toJson p := .object [("line", toJson p.line), ("character", toJson p.character)]
  ofJson := Json.readRecord (do
    let line ← .field "line"
    let character ← .field "character"
    return { line, character }) "Position"

end Position

/-- The text from `start` up to `stop`. -/
structure Range where
  start : Position
  stop : Position
  deriving DecidableEq, Repr, Inhabited

namespace Range

instance : Payload Range where
  toJson r := .object [("start", toJson r.start), ("end", toJson r.stop)]
  ofJson := Json.readRecord (do
    let start ← .field "start"
    let stop ← .field "end"
    return { start, stop }) "Range"

end Range

/-- A text to put in the place of another. -/
structure TextEdit where
  range : Range
  newText : String
  deriving DecidableEq, Repr, Inhabited

namespace TextEdit

instance : Payload TextEdit where
  toJson e := .object [("range", toJson e.range), ("newText", toJson e.newText)]
  ofJson := Json.readRecord (do
    let range ← .field "range"
    let newText ← .field "newText"
    return { range, newText }) "TextEdit"

end TextEdit

end LanguageClient
