import LanguageClient.Error
import LanguageClient.Path
import LanguageClient.Text.Utf8
/-!
# File trees

A file system as the client sees it: directories, files and symbolic links.  A place in the tree is
a list of names from the root.  `FileTree.resolve` finds the place that a path leads to, where every
link is followed.
-/

namespace LanguageClient

/-- What is found at a place. -/
inductive Node where
  | file (octets : List UInt8)
  | link (target : String)
  | dir (entries : List (String × Node))
  deriving Inhabited

namespace Node

/-- Whether this is a directory. -/
def isDir : Node → Bool
  | dir _ => true
  | _ => false

/-- Whether this is a regular file. -/
def isFile : Node → Bool
  | file _ => true
  | _ => false

/-- What a directory has under a name. -/
def entry? (name : String) : Node → Option Node
  | dir entries => entries.lookup name
  | _ => none

/-- What is found at a place below a node; links are not followed. -/
def get? (n : Node) : List String → Option Node
  | [] => some n
  | name :: rest => (n.entry? name).bind (·.get? rest)

/-- Puts an entry into a list of entries, in the place of one of its name. -/
def putEntry (name : String) (n : Node) : List (String × Node) → List (String × Node)
  | [] => [(name, n)]
  | (k, m) :: rest => if k = name then (name, n) :: rest else (k, m) :: putEntry name n rest

/-- Puts a node at a place below a node; directories that are missing are made. -/
def put (n : Node) (place : List String) (new : Node) : Node :=
  match place with
  | [] => new
  | name :: rest =>
    let entries := match n with
      | dir entries => entries
      | _ => []
    let child := (entries.lookup name).getD (dir [])
    dir (putEntry name (child.put rest new) entries)

end Node

/-- A file system, by its root directory. -/
structure FileTree where
  root : Node := .dir []
  deriving Inhabited

namespace FileTree

/-- How many links a path may lead through. -/
def maxLinks : Nat := 40

/-- The pieces of a path between its separators. -/
def pieces (path : String) : List String :=
  (Text.splitAll '/' path.toList).map String.ofList

/-- Follows the pieces of a path from a place; `links` more links may be followed. -/
def follow (t : FileTree) (links : Nat) (place : List String) :
    List String → Except SystemError (List String)
  | [] => .ok place
  | piece :: rest =>
    match t.root.get? place with
    | some (.dir entries) =>
      if piece = "" ∨ piece = "." then follow t links place rest
      else if piece = ".." then follow t links place.dropLast rest
      else
        match entries.lookup piece with
        | none => .error .noSuchFile
        | some (.link target) =>
          match links with
          | 0 => .error (.other "Too many levels of symbolic links (os error 40)")
          | links + 1 =>
            follow t links (if Path.isAbsolute target then [] else place) (pieces target ++ rest)
        | some _ => follow t links (place ++ [piece]) rest
    | some _ => .error .notDirectory
    | none => .error .noSuchFile
termination_by pieces => (links, pieces.length)

/-- The place that a path leads to; a relative path starts at the root. -/
def resolve (t : FileTree) (path : String) : Except SystemError (List String) :=
  if path.toList.isEmpty then .error .noSuchFile
  else if path.toList.contains '\x00' then
    .error (.other "file name contained an unexpected NUL byte")
  else t.follow maxLinks [] (pieces path)

/-- The path of a place. -/
def pathOf (place : List String) : String :=
  "/" ++ "/".intercalate place

/-- The path without links that a path stands for. -/
def canonical (t : FileTree) (path : String) : Except SystemError String :=
  (t.resolve path).map pathOf

/-- What a path leads to. -/
def node? (t : FileTree) (path : String) : Option Node :=
  match t.resolve path with
  | .ok place => t.root.get? place
  | .error _ => none

/-- Whether a path leads to anything. -/
def pathExists (t : FileTree) (path : String) : Bool :=
  (t.node? path).isSome

/-- Whether a path leads to a directory. -/
def isDir (t : FileTree) (path : String) : Bool :=
  (t.node? path).any Node.isDir

/-- The octets of a file. -/
def read (t : FileTree) (path : String) : Except SystemError (List UInt8) :=
  match t.resolve path with
  | .error e => .error e
  | .ok place =>
    match t.root.get? place with
    | some (.file octets) => .ok octets
    | some (.dir _) => .error .isDirectory
    | _ => .error .noSuchFile

/-- The text of a file that has to be UTF-8. -/
def readText (t : FileTree) (path : String) : Except SystemError String := do
  match Utf8.string? (← t.read path) with
  | some s => return s
  | none => throw .notText

/-- Follows the pieces of a path as far as there is anything, and takes the others as names. -/
def locate (t : FileTree) (place : List String) : List String → List String
  | [] => place
  | piece :: rest =>
    if piece = "" ∨ piece = "." then locate t place rest
    else if piece = ".." then locate t place.dropLast rest
    else
      match t.follow maxLinks place [piece] with
      | .ok next => locate t next rest
      | .error _ => locate t (place ++ [piece]) rest

/-- Puts a node where a path leads, making the directories that are missing. -/
def place (t : FileTree) (path : String) (n : Node) : FileTree :=
  ⟨t.root.put (t.locate [] (pieces path)) n⟩

/-- The part of a path before its last name, if it has one. -/
def parent? (path : String) : Option String :=
  match (Path.parts path).reverse with
  | .name _ :: rest => some (Path.ofParts rest.reverse)
  | .up :: rest => some (Path.ofParts rest.reverse)
  | _ => none

/-- Makes a directory and all directories above it. -/
def makeDirs (t : FileTree) (path : String) : Except SystemError FileTree :=
  go [] (pieces path)
where
  /-- Makes the directories for the pieces of a path below a place. -/
  go (at_ : List String) : List String → Except SystemError FileTree
    | [] => .ok ⟨(if (t.root.get? at_).isSome then t.root else t.root.put at_ (.dir []))⟩
    | piece :: rest =>
      if piece = "" ∨ piece = "." then go at_ rest
      else if piece = ".." then go at_.dropLast rest
      else
        match t.follow maxLinks at_ [piece] with
        | .ok next =>
          if (t.root.get? next).any Node.isDir then go next rest
          else if rest.any fun piece => piece ≠ "" ∧ piece ≠ "." then .error .notDirectory
          else .error .fileExists
        | .error .noSuchFile => go (at_ ++ [piece]) rest
        | .error e => .error e

/-- Writes a file into a directory that is there. -/
def write (t : FileTree) (path : String) (octets : List UInt8) : Except SystemError FileTree :=
  let place := t.locate [] (pieces path)
  match t.root.get? place with
  | some (.dir _) => .error .isDirectory
  | some _ => .ok ⟨t.root.put place (.file octets)⟩
  | none =>
    match t.root.get? place.dropLast with
    | some (.dir _) => .ok ⟨t.root.put place (.file octets)⟩
    | some _ => .error .notDirectory
    | none => .error .noSuchFile

end FileTree

end LanguageClient
