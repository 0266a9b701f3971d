import LanguageClient.Json.Basic
import LanguageClient.Table
/-!
# Tables of TOML

The tables that a document builds up, line by line.

A table may be opened once, and a key may be given once.  A table that came to be only because a
table inside it was opened may still be opened itself.  A key with dots makes the tables on its way,
and later keys with dots may go through those; but they may not go through tables that were opened,
and tables made in this way may not be opened.
-/

namespace LanguageClient.Toml

/-- What a key of a table stands for. -/
inductive Item where
  | value (v : Json)
  /-- A table.  It is `implicit` when it was not opened itself, and `dotted` when a key with dots has
      made it. -/
  | table (isImplicit isDotted : Bool) (entries : List (String × Item))
  /-- Tables in an array, the newest first. -/
  | tables (items : List (List (String × Item)))
  deriving Inhabited

/-- The keys of a table and what they stand for. -/
abbrev Entries := Table String Item

namespace Entries

/-- Changes the table that a path leads to.  Tables that are missing are made; of an array of tables
    the newest is meant.  The change is told whether keys with dots have made the table.  `byDots`
    says that the path is part of a key with dots. -/
def update (byDots : Bool) (change : Bool → Entries → Option Entries) (isDotted : Bool) :
    List String → Entries → Option Entries
  | [], entries => change isDotted entries
  | key :: rest, entries =>
    match entries.get? key with
    | none =>
      (update byDots change byDots rest []).map fun sub => entries.put key (.table true byDots sub)
    | some (.table isImplicit isDotted sub) =>
      if byDots && !isImplicit then none
      else
        (update byDots change isDotted rest sub).map fun sub =>
          entries.put key (.table isImplicit isDotted sub)
    | some (.tables (newest :: older)) =>
      (update byDots change false rest newest).map fun newest =>
        entries.put key (.tables (newest :: older))
    | some _ => none

/-- Gives a key, which may be made of several, a value. -/
def give (path : List String) (key : String) (v : Json) : Entries → Option Entries :=
  update true (fun isDotted entries =>
    -- a path ends in a table of its own kind
    if isDotted == path.isEmpty ∨ entries.has key then none else some (entries.put key (.value v)))
    false path

/-- Gives a key of the table at a place a value. -/
def giveAt (place path : List String) (key : String) (v : Json) (root : Entries) :
    Option Entries :=
  update false (fun _ entries => give path key v entries) false place root

/-- Opens a table. -/
def openTable (path : List String) (key : String) : Entries → Option Entries :=
  update false (fun _ entries =>
    match entries.get? key with
    | none => some (entries.put key (.table false false []))
    | some (.table true false sub) => some (entries.put key (.table false false sub))
    | some _ => none) false path

/-- Opens the next table of an array. -/
def openNext (path : List String) (key : String) : Entries → Option Entries :=
  update false (fun _ entries =>
    match entries.get? key with
    | none => some (entries.put key (.tables [[]]))
    | some (.tables items) => some (entries.put key (.tables ([] :: items)))
    | some _ => none) false path

end Entries

mutual

def Item.toJson : Item → Json
  | .value v => v
  | .table _ _ entries => .object (entriesJson entries)
  | .tables items => .arr (tablesJson [] items)

def entriesJson : List (String × Item) → List (String × Json)
  | [] => []
  | (key, item) :: rest => (key, item.toJson) :: entriesJson rest

/-- The tables of an array, the newest of which come first, in order before those of `later`. -/
def tablesJson (later : List Json) : List (List (String × Item)) → List Json
  | [] => later
  | entries :: rest => tablesJson (.object (entriesJson entries) :: later) rest

end

end LanguageClient.Toml
