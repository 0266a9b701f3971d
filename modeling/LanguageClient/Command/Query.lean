import LanguageClient.Command.Basic
import LanguageClient.Host.Basic
import LanguageClient.Report
import LanguageClient.Settings.Server
/-!
# Queries

A query asks one server about a place in a document, and reports the answer in the same form whatever
form the server chose: a hover as one text, and definitions and references as a list of places, with
lines and columns counted from one.
-/

namespace LanguageClient

/-- What one server is asked. -/
structure Query where
  kind : QueryKind
  server : ServerConfig
  uri : String
  position : Position
  /-- The place of the declaration counts as a use. -/
  declaration : Bool
  deriving DecidableEq, Inhabited

namespace Query

/-! ## Asking -/

/-- The server that a line of words starts. -/
def serverOfLine (line languageId : String) : Except CommandError ServerConfig :=
  match (Text.words line.toList).map String.ofList with
  | [] => .error .emptyServerCommand
  | program :: args =>
    .ok { name := program, transport := .process program args, languages := [languageId] }

/-- The server that is asked about a document. -/
def chooseServer (config : ClientConfig) (d : Document) :
    ServerChoice → Except CommandError ServerConfig
  | .address address => .ok (.ofAddress address address [d.languageId])
  | .process line => serverOfLine line d.languageId
  | .named name =>
    match config.server? name with
    | some server => .ok server
    | none => .error (.unknownServer name)
  | .responsible =>
    match config.effectiveServers.find? (·.selector.selects d.languageId d.uri) with
    | some server => .ok server
    | none => .error (.noServerFor d.languageId)

/-- Works out what is to be asked, and opens the document. -/
def prepare (config : ClientConfig) (h : Host) (kind : QueryKind) (place : String)
    (choice : ServerChoice) (declaration : Bool) : Except CommandError (Query × Host) := do
  let location ← (Location.parse place).mapError CommandError.location
  let path := Path.join h.root location.file
  let file ← (h.tree.canonical path).mapError fun _ => CommandError.fileNotFound path
  let (d, h) ← (h.openFile file).mapError CommandError.unreadable
  let server ← chooseServer config d choice
  return ({ kind, server, uri := d.uri, position := location.position, declaration }, h)

def params (q : Query) : Json :=
  let place : TextDocumentPositionParams := { textDocument := ⟨q.uri⟩, position := q.position }
  match q.kind with
  | .references =>
    toJson ({ position := place, context := ⟨q.declaration⟩ } : ReferenceParams)
  | .hover | .definition => toJson place

/-! ## Hovers -/

mutual

/-- The text of the contents of a hover. -/
def contentsText? : Json → Option String
  | .str s => some s
  | .arr items =>
    match contentsTexts items with
    | [] => none
    | texts => some ("\n\n".intercalate texts)
  | .obj members => (members.lookup "value").bind Json.text?
  | _ => none

/-- The texts of the items that have one. -/
def contentsTexts : List Json → List String
  | [] => []
  | item :: items => (contentsText? item).toList ++ contentsTexts items

end

/-- The text of a hover; an empty text is none. -/
def hoverText? (result : Json) : Option String :=
  ((result.get? "contents").bind contentsText?).filter (!·.toList.isEmpty)

/-! ## Places -/

/-- A place as it is reported. -/
structure Place where
  path : String
  line : UInt32
  column : UInt32
  deriving DecidableEq, Repr, Inhabited

/-- A number of a position, counted from one. -/
def oneBased? (v : Json) : Option UInt32 :=
  match v with
  | .int n => if 0 ≤ n then some (UInt32.ofNat n.toNat + 1) else none
  | _ => none

/-- The value of the first of two members that is there. -/
def either? (v : Json) (first second : String) : Option Json :=
  (v.get? first).or (v.get? second)

/-- The place that an item of a result tells. -/
def place? (root : String) (item : Json) : Option Place := do
  let uri ← (← either? item "uri" "targetUri").text?
  let start ← (← either? item "range" "targetSelectionRange").get? "start"
  let line ← oneBased? (← start.get? "line")
  let column ← oneBased? (← start.get? "character")
  return { path := Report.displayUri root uri, line, column }

/-- The places that a result tells. -/
def places (root : String) : Json → List Place
  | .arr items => items.filterMap (place? root)
  | .obj members => (place? root (.obj members)).toList
  | _ => []

/-! ## Reporting -/

def Place.toJson (p : Place) : Json :=
  .object [("path", .str p.path), ("line", .int p.line.toNat), ("column", .int p.column.toNat)]

/-- What the result of the request is reported as. -/
def report (root : String) (q : Query) (result : Json) : Json :=
  let message (absent : Bool) (text : String) : List (String × Json) :=
    if absent then [("message", .str text)] else []
  let found := match q.kind with
    | .hover =>
      let text := hoverText? result
      Json.present "content" text ++ message text.isNone "No hover information available"
    | .definition | .references =>
      let found := places root result
      [("locations", Json.arr (found.map Place.toJson))]
        ++ message found.isEmpty "No locations found"
  Report.success ([("kind", .str q.kind.method), ("server", .str q.server.name)] ++ found)

end Query

end LanguageClient
