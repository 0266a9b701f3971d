import LanguageClient.Glob
import LanguageClient.Text.Replace
/-!
# Ignore rules

A file of ignore rules has one pattern a line.  A pattern without a separator stands for names at
any depth, and one with a separator for paths from the directory of the file.  A pattern that ends
in a separator stands for directories only.  `!` before a pattern takes back what an earlier one
ignores: the last rule that holds decides.

Rules that stand in no directory of the workspace judge a path by its spelling.
-/

namespace LanguageClient

/-- What rules say about a path. -/
inductive Verdict where
  | ignored
  /-- Some rule wants the path to be kept. -/
  | kept
  deriving DecidableEq, Repr

/-- A rule. -/
structure IgnoreRule where
  glob : Glob
  /-- The rule takes back what others ignore. -/
  keeps : Bool
  onlyDirs : Bool

namespace IgnoreRule

/-- How the patterns of rules are read. -/
def options : GlobOptions :=
  { literalSeparator := true, allowUnclosedClass := true }

/-- A line without the blanks at its end; an escaped space at the end is kept with all before. -/
def trimLine (cs : List Char) : List Char :=
  match cs.reverse with
  | ' ' :: '\\' :: _ => cs
  | reversed => (reversed.dropWhile Text.isBlank).reverse

/-- Whether a pattern begins with a part that stands for any directories. -/
def isAnywhere (cs : List Char) : Bool :=
  cs == ['*', '*'] || (Text.dropPrefix? ['*', '*', '/'] cs).isSome

/-- Removes the separator at the end of a pattern, and an escape before it. -/
def dropLastSeparator (cs : List Char) : Option (List Char) :=
  match cs.reverse with
  | '/' :: '\\' :: rest => some rest.reverse
  | '/' :: rest => some rest.reverse
  | _ => none

/-- The pattern in full: found at any depth when it has no separator, and not standing for the
    directory itself when it ends in `**`. -/
def fullPattern (anchored : Bool) (cs : List Char) : List Char :=
  let cs := if !anchored && !cs.contains '/' && !isAnywhere cs then '*' :: '*' :: '/' :: cs else cs
  match cs.reverse with
  | '*' :: '*' :: '/' :: _ => cs ++ ['/', '*']
  | _ => cs

/-- The rule on a line, if there is one that can be read. -/
def ofLine? (line : List Char) : Option IgnoreRule :=
  if line.head? = some '#' then none
  else
    let line := trimLine line
    if line.isEmpty then none
    else
      let (keeps, anchored, line) :=
        match line with
        | '\\' :: '!' :: rest => (false, false, '!' :: rest)
        | '\\' :: '#' :: rest => (false, false, '#' :: rest)
        | '!' :: '/' :: rest => (true, true, rest)
        | '!' :: rest => (true, false, rest)
        | '/' :: rest => (false, true, rest)
        | rest => (false, false, rest)
      let (onlyDirs, line) :=
        match dropLastSeparator line with
        | some line => (true, line)
        | none => (false, line)
      (Glob.parse? (String.ofList (fullPattern anchored line)) options).map fun glob =>
        { glob, keeps, onlyDirs }

/-- The lines of a file as texts, up to the first that is no text. -/
def linesOf (octets : List UInt8) : List (List Char) :=
  let rec split : List UInt8 → List UInt8 → List (List UInt8)
    | [], [] => []
    | [], line => [line.reverse]
    | b :: rest, line => if b = 0x0A then line.reverse :: split rest [] else split rest (b :: line)
  let texts := (split octets []).map fun line =>
    (Utf8.decode? line).map fun cs =>
      match cs.reverse with
      | '\r' :: rest => rest.reverse
      | _ => cs
  (texts.takeWhile Option.isSome).filterMap id

/-- The rules of a file. -/
def ofOctets (octets : List UInt8) : List IgnoreRule :=
  match linesOf octets with
  | [] => []
  | first :: rest =>
    ((first.dropWhile (· = '\uFEFF')) :: rest).filterMap ofLine?

/-- What rules say about a path below the directory of their file. -/
def verdict (rules : List IgnoreRule) (path : String) (isDir : Bool) : Option Verdict :=
  (rules.reverse.find? fun r => (!r.onlyDirs || isDir) && r.glob.isMatch path).map fun r =>
    if r.keeps then .kept else .ignored

end IgnoreRule

/-- Rules that stand in no directory of the workspace; `dir` is left out at the front of a path. -/
structure OuterRules where
  dir : String := ""
  rules : List IgnoreRule := []
  deriving Inhabited

namespace OuterRules

/-- What is left of a path for the rules to look at.  `dir` is a text before the path, not a
    directory above it; a bare name is never cut. -/
def rest (o : OuterRules) (path : String) : String :=
  let without (start cs : List Char) : List Char := (Text.dropPrefix? start cs).getD cs
  let cs := without ['.', '/'] path.toList
  if cs.contains '/' then
    match Text.dropPrefix? o.dir.toList cs with
    | some cs => String.ofList (without ['/'] cs)
    | none => String.ofList cs
  else String.ofList cs

def verdict (o : OuterRules) (path : String) (isDir : Bool) : Option Verdict :=
  IgnoreRule.verdict o.rules (o.rest path) isDir

end OuterRules

end LanguageClient
