import LanguageClient.Settings.Basic
import LanguageClient.Uri
import LanguageClient.Workspace.FileTree
import LanguageClient.Workspace.Ignore
/-!
# Listing files

`listFiles` lists the regular files below a directory, in the order of their paths.  Links are not
followed, and what is called `.git` is left out with all that is in it.  Ignore rules and the rule
about hidden names leave out more; they are not applied to the directory that the listing starts at,
but the rules of the directories above it count for what is in it.

The rules of the innermost directory come first; of the rules of one directory those of `.ignore`
come before those of `.gitignore`, and these before those of `.git/info/exclude`.  Then come the rules
that the user has for all repositories, and last the rules of the project's own ignore file.
-/

namespace LanguageClient

/-- Which files are listed. -/
structure WalkOptions where
  respectGitignore : Bool := true
  includeHidden : Bool := false
  deriving DecidableEq, Repr, Inhabited

namespace WalkOptions

/-- The options that the settings say. -/
def ofSettings (s : FilesSettings) : WalkOptions :=
  { respectGitignore := s.respectGitignore, includeHidden := s.includeHidden }

end WalkOptions

namespace Workspace

/-- The project's own ignore file, seen from the root of the workspace. -/
def ignoreFile : String := ".langlink/ignore"

/-- The directory that a request means: a file URI, an absolute path, or a path seen from the root;
    nothing or blanks mean the root. -/
def resolveBase (root : String) (base : Option String) : String :=
  match (base.map Text.trim).filter (· ≠ "") with
  | none => root
  | some base => Path.join root ((Uri.toPath? base).getD base)

/-- The rules of one directory. -/
structure Layer where
  /-- The names from this directory to the one whose entries are looked at. -/
  below : List String
  ignore : List IgnoreRule
  gitignore : List IgnoreRule
  exclude : List IgnoreRule

/-- The rules that stand in no directory of the workspace. -/
structure Outside where
  /-- The rules that the user has for all repositories. -/
  global : OuterRules
  /-- The rules of the project's own ignore file. -/
  own : OuterRules

def Outside.verdict (o : Outside) (path : String) (isDir : Bool) : Option Verdict :=
  o.global.verdict path isDir <|> o.own.verdict path isDir

/-- Where the listing stands. -/
structure Context where
  tree : FileTree
  options : WalkOptions
  /-- The rules of the directories passed, the innermost first. -/
  layers : List Layer
  outside : Outside

namespace Context

/-- The rules in a file; a file that cannot be read has none. -/
def rulesAt (tree : FileTree) (place : List String) : List IgnoreRule :=
  match tree.read (FileTree.pathOf place) with
  | .ok octets => IgnoreRule.ofOctets octets
  | .error _ => []

/-- The rules of the directory at a place. -/
def layerAt (tree : FileTree) (options : WalkOptions) (place : List String) : Layer :=
  let rules (names : List String) := rulesAt tree (place ++ names)
  { below := []
    ignore := rules [".ignore"]
    gitignore := if options.respectGitignore then rules [".gitignore"] else []
    exclude := if options.respectGitignore then rules [".git", "info", "exclude"] else [] }

/-- Enters a directory. -/
def enter (c : Context) (place : List String) (name : String) : Context :=
  { c with
    layers := layerAt c.tree c.options place
      :: c.layers.map fun l => { l with below := l.below ++ [name] } }

/-- The first verdict that the layers give by one kind of their rules. -/
def verdictBy (c : Context) (rules : Layer → List IgnoreRule) (name : String) (isDir : Bool) :
    Option Verdict :=
  c.layers.findSome? fun l =>
    IgnoreRule.verdict (rules l) ("/".intercalate (l.below ++ [name])) isDir

/-- What the rules say about an entry of the directory that was entered last. -/
def verdict (c : Context) (path name : String) (isDir : Bool) : Option Verdict :=
  c.verdictBy Layer.ignore name isDir
    <|> c.verdictBy Layer.gitignore name isDir
    <|> c.verdictBy Layer.exclude name isDir
    <|> c.outside.verdict path isDir

/-- Whether an entry is looked at. -/
def admits (c : Context) (path name : String) (isDir : Bool) : Bool :=
  name ≠ ".git" &&
    match c.verdict path name isDir with
    | some .ignored => false
    | some .kept => true
    | none => c.options.includeHidden || name.toList.head? ≠ some '.'

end Context

/-- The path of an entry of a directory. -/
def entryPath (path name : String) : String :=
  Path.join path name

/-- Something that the walk comes by. -/
structure Entry where
  path : String
  isFile : Bool
  deriving DecidableEq, Repr

mutual

/-- What the walk comes by at a place, which is shown as `path`. -/
def entriesOf (c : Context) (path : String) (place : List String) : Node → List Entry
  | .file _ => [⟨path, true⟩]
  | .link _ => [⟨path, false⟩]
  | .dir entries => ⟨path, false⟩ :: entriesBelow c path place entries

/-- What the walk comes by in the entries of a directory. -/
def entriesBelow (c : Context) (path : String) (place : List String) :
    List (String × Node) → List Entry
  | [] => []
  | (name, node) :: rest =>
    let entry := entryPath path name
    let here :=
      if c.admits entry name node.isDir then
        let c := if node.isDir then c.enter (place ++ [name]) name else c
        entriesOf c entry (place ++ [name]) node
      else []
    here ++ entriesBelow c path place rest

end

/-- The context in which the entries of the directory at a place are looked at: the rules of it and
    of all directories above it. -/
def contextAt (tree : FileTree) (options : WalkOptions) (outside : Outside)
    (place : List String) : Context :=
  let start : Context :=
    { tree, options, outside, layers := [Context.layerAt tree options []] }
  (place.foldl (fun (c, above) name => ((c.enter (above ++ [name]) name), above ++ [name]))
    (start, ([] : List String))).1

/-- The rules of the project's own ignore file. -/
def ownRules (tree : FileTree) (root : String) : List IgnoreRule :=
  match tree.read (Path.join root ignoreFile) with
  | .ok octets => IgnoreRule.ofOctets octets
  | .error _ => []

/-- The rules outside the workspace that count: those of the user only where those of git do. -/
def outsideOf (tree : FileTree) (global : OuterRules) (root : String) (options : WalkOptions) :
    Outside :=
  { global := if options.respectGitignore then global else {}
    own := { rules := ownRules tree root } }

/-- All that a walk from `base` comes by, `base` itself first; a base that is not there is an entry
    that cannot be read. -/
def entries (tree : FileTree) (global : OuterRules) (root base : String) (options : WalkOptions) :
    List Entry :=
  match tree.resolve base with
  | .error _ => [⟨base, false⟩]
  | .ok place =>
    match tree.root.get? place with
    | none => [⟨base, false⟩]
    | some node =>
      entriesOf (contextAt tree options (outsideOf tree global root options) place) base place node

/-- All files below `base`, in order.  `fired i` says that the request turns out to be cancelled when
    the walk comes by its entry number `i`. -/
def collectFiles (tree : FileTree) (root base : String) (options : WalkOptions) (fired : Nat → Bool)
    (global : OuterRules := {}) : Except ClientError (List String) :=
  let found := entries tree global root base options
  if (List.range found.length).any fired then .error .cancelled
  else .ok (((found.filter (·.isFile)).map (·.path)).mergeSort Path.le)

/-- The error for a base that is no directory. -/
def noDirectory (base : String) : ClientError :=
  .system (.other (base ++ " is not a directory"))

/-- All files below a directory. -/
def listFiles (tree : FileTree) (global : OuterRules) (root base : String) (options : WalkOptions)
    (fired : Nat → Bool) : Except ClientError (List String) :=
  if tree.isDir base then collectFiles tree root base options fired global
  else .error (noDirectory base)

end Workspace

end LanguageClient
