import LanguageClient.Text.Replace
/-!
# File paths

A path is a text whose names are separated by `/`; it is absolute when it begins with one.  The
parts of a path are its names, without the empty ones and without `.` except at the very beginning
of a relative path; `..` stays.  Paths are compared part by part.
-/

namespace LanguageClient.Path

def isAbsolute (path : String) : Bool :=
  path.toList.head? == some '/'

/-- A part of a path. -/
inductive Part where
  | root
  | here
  | up
  | name (s : String)
  deriving DecidableEq, Repr

/-- The part that a piece between separators stands for. -/
def partOf (first : Bool) (piece : List Char) : Option Part :=
  match piece with
  | [] => none
  | ['.'] => if first then some .here else none
  | ['.', '.'] => some .up
  | cs => some (.name (String.ofList cs))

def parts (path : String) : List Part :=
  match path.toList with
  | [] => []
  | '/' :: rest => .root :: (Text.splitAll '/' rest).filterMap (partOf false)
  | cs =>
    match Text.splitAll '/' cs with
    | [] => []
    | piece :: pieces => (partOf true piece).toList ++ pieces.filterMap (partOf false)

def Part.text : Part → String
  | root => "/"
  | here => "."
  | up => ".."
  | name s => s

def ofParts (ps : List Part) : String :=
  match ps with
  | .root :: rest => "/" ++ "/".intercalate (rest.map Part.text)
  | ps => "/".intercalate (ps.map Part.text)

/-- The path `path` seen from the directory `base`: an absolute path stands for itself, any other
    is put behind the directory and a separator. -/
def join (base path : String) : String :=
  if isAbsolute path then path
  else
    let separator := match base.toList.getLast? with
      | none => ""
      | some '/' => ""
      | some _ => "/"
    base ++ separator ++ path

/-- The name a path ends in, unless it ends in `..` or has no names. -/
def fileName (path : String) : Option String :=
  match (parts path).getLast? with
  | some (.name s) => some s
  | _ => none

/-- The extension of a file name: what follows its last dot, if something comes before that. -/
def extension (path : String) : Option String := do
  let name ← fileName path
  let (stem, ext) ← Text.splitLast '.' name.toList
  if stem.isEmpty then none else some (String.ofList ext)

/-! ## Paths below a directory -/

/-- The pieces that are left of a path after the pieces for some parts, if it begins with those. -/
def dropPieces (first : Bool) : List Part → List (List Char) → Option (List (List Char))
  | [], pieces => some pieces
  | _ :: _, [] => none
  | p :: ps, piece :: pieces =>
    match partOf first piece with
    | none => dropPieces false (p :: ps) pieces
    | some q => if p = q then dropPieces false ps pieces else none

/-- Pieces without those at the end that stand for no part. -/
def trimEnd (pieces : List (List Char)) : List (List Char) :=
  (pieces.reverse.dropWhile fun piece => (partOf false piece).isNone).reverse

/-- Pieces without those at both ends that stand for no part. -/
def trimPieces (pieces : List (List Char)) : List (List Char) :=
  trimEnd (pieces.dropWhile fun piece => (partOf false piece).isNone)

/-- Pieces put together. -/
def joinPieces (pieces : List (List Char)) : String :=
  "/".intercalate (pieces.map String.ofList)

/-- A path without the separators and dots at its end. -/
def trimmed (path : String) : String :=
  match path.toList with
  | '/' :: rest => "/" ++ joinPieces (trimEnd (Text.splitAll '/' rest))
  | cs =>
    match Text.splitAll '/' cs with
    | [] => ""
    | piece :: pieces => joinPieces (piece :: trimEnd pieces)

/-- The part of a path below a directory, if it lies there; it is spelled as in the path.  Below the
    empty path lies every path. -/
def below? (base path : String) : Option String :=
  match parts base, path.toList with
  | [], _ => some (trimmed path)
  | .root :: ps, '/' :: cs => (dropPieces false ps (Text.splitAll '/' cs)).map (joinPieces ∘ trimPieces)
  | .root :: _, _ => none
  | _, '/' :: _ => none
  | ps, cs => (dropPieces true ps (Text.splitAll '/' cs)).map (joinPieces ∘ trimPieces)

/-- The rank of a kind of part in the order of parts. -/
def Part.rank : Part → Nat
  | root => 0
  | here => 1
  | up => 2
  | name _ => 3

/-- The order of parts: by kind, and names by their characters. -/
def Part.le : Part → Part → Bool
  | name s, name t => s ≤ t
  | p, q => p.rank ≤ q.rank

/-- The order of paths, part by part. -/
def partsLe : List Part → List Part → Bool
  | [], _ => true
  | _ :: _, [] => false
  | p :: ps, q :: qs => if p = q then partsLe ps qs else Part.le p q

def le (a b : String) : Bool :=
  partsLe (parts a) (parts b)

end LanguageClient.Path
