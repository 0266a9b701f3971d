import LanguageClient.Text.Utf8
/-!
# Glob patterns

Patterns for paths.  `?` stands for one octet and `*` for any number of them; whether they may stand
for a separator is the user's choice.  `**` as a whole component stands for any number of
components.  `[a-z]` is a class, `[!a]` or `[^a]` its complement, `{a,b}` a choice, and `\` takes the
next character as it is.

A pattern is read into a list of tokens (`Glob.parse?`) and matched against the octets of a path:
each token turns what is left of the path into the list of what may be left after it, and the path
matches when nothing can be left at the end.
-/

namespace LanguageClient

/-- A part of a pattern. -/
inductive GlobToken where
  | literal (c : Char)
  | any
  | star
  /-- `**` and a separator at the beginning, or `**` alone. -/
  | anyPrefix
  /-- A separator and `**` at the end. -/
  | anySuffix
  /-- `**` between two separators. -/
  | anyInfix
  | oneOf (negated : Bool) (ranges : List (Char × Char))
  | choice (branches : List (List GlobToken))

/-- How a pattern is read and matched. -/
structure GlobOptions where
  /-- Only a separator in the pattern stands for a separator in the path. -/
  literalSeparator : Bool := false
  /-- A `[` without its `]` stands for itself. -/
  allowUnclosedClass : Bool := false

/-- A pattern that was read. -/
structure Glob where
  tokens : List GlobToken
  options : GlobOptions

namespace Glob

/-! ## Reading -/

/-- What has been read: the tokens of the innermost branch in reverse, and for each open choice its
    finished branches in reverse and the tokens before it in reverse. -/
structure Reading where
  tokens : List GlobToken := []
  choices : List (List (List GlobToken) × List GlobToken) := []
  /-- Some class was found to have no end, so every `[` stands for itself. -/
  unclosed : Bool := false

def Reading.push (r : Reading) (t : GlobToken) : Reading :=
  { r with tokens := t :: r.tokens }

/-- Reads the characters of a class up to its `]`; `ranges` is in reverse, and `pending` says that
    a `-` waits for the end of a range. -/
def readClass (first pending : Bool) (ranges : List (Char × Char)) :
    List Char → Option (Option (List (Char × Char)) × List Char)
  | [] => none
  | c :: rest =>
    let single (c : Char) := readClass false false ((c, c) :: ranges) rest
    -- the end of a range must not come before its beginning
    let close (c : Char) :=
      match ranges with
      | (low, _) :: ranges =>
        if c < low then some (none, rest) else readClass false false ((low, c) :: ranges) rest
      | [] => single c
    if c = ']' then
      if first then single c
      else some (some (if pending then ('-', '-') :: ranges else ranges), rest)
    else if c = '-' then
      if first then single c
      else if pending then close c
      else readClass false true ranges rest
    else if pending then close c
    else single c

/-- The outcome of reading one class, after its `[`. -/
inductive ClassOutcome where
  | token (t : GlobToken) (rest : List Char)
  | unclosed
  | invalid

def classToken (cs : List Char) : ClassOutcome :=
  let (negated, cs) := match cs with
    | '!' :: rest => (true, rest)
    | '^' :: rest => (true, rest)
    | cs => (false, cs)
  match readClass true false [] cs with
  | none => .unclosed
  | some (none, _) => .invalid
  | some (some ranges, rest) => .token (.oneOf negated ranges.reverse) rest

/-- Reads the second `*` of two, with `previous` the character before the first.  The answer is the
    new reading and the rest of the pattern. -/
def readDoubleStar (r : Reading) (previous : Option Char) (rest : List Char) :
    Reading × List Char :=
  let plain := ((r.push .star).push .star, rest)
  if r.tokens.isEmpty then
    match rest with
    | [] => (r.push .anyPrefix, [])
    | '/' :: rest => (r.push .anyPrefix, rest)
    | _ => plain
  else if previous ≠ some '/' ∧ (r.choices.isEmpty ∨ previous ≠ some ',' ∧ previous ≠ some '{') then
    plain
  else
    let replaceLast (suffix : Bool) : Reading :=
      match r.tokens with
      | .anyPrefix :: _ => r
      | .anySuffix :: _ => r
      | _ :: ts => { r with tokens := (if suffix then .anySuffix else .anyInfix) :: ts }
      | [] => r
    match rest with
    | [] => (replaceLast true, [])
    | '/' :: rest => (replaceLast false, rest)
    | c :: _ =>
      if (c = ',' ∨ c = '}') ∧ !r.choices.isEmpty then (replaceLast true, rest) else plain

/-- Reads a pattern character by character.  The fuel is the length of the pattern. -/
def readTokens (options : GlobOptions) (fuel : Nat) (r : Reading) (previous : Option Char)
    (cs : List Char) : Option (List GlobToken) :=
  match fuel, cs with
  | _, [] => if r.choices.isEmpty then some r.tokens.reverse else none
  | 0, _ => none
  | fuel + 1, c :: rest =>
    match c with
    | '?' => readTokens options fuel (r.push .any) (some c) rest
    | '*' =>
      match rest with
      | '*' :: rest =>
        let (r, after) := readDoubleStar r previous rest
        let last := if after.length < rest.length then '/' else '*'
        readTokens options fuel r (some last) after
      | rest => readTokens options fuel (r.push .star) (some c) rest
    | '[' =>
      if r.unclosed then readTokens options fuel (r.push (.literal c)) (some c) rest
      else
        match classToken rest with
        | .token t rest => readTokens options fuel (r.push t) (some ']') rest
        | .invalid => none
        | .unclosed =>
          if options.allowUnclosedClass then
            readTokens options fuel { r.push (.literal c) with unclosed := true } (some c) rest
          else none
    | '{' =>
      readTokens options fuel { r with tokens := [], choices := ([], r.tokens) :: r.choices }
        (some c) rest
    | '}' =>
      match r.choices with
      | [] => none
      | (branches, before) :: outer =>
        let choice := GlobToken.choice (r.tokens.reverse :: branches).reverse
        readTokens options fuel { r with tokens := choice :: before, choices := outer } (some c) rest
    | ',' =>
      match r.choices with
      | [] => readTokens options fuel (r.push (.literal c)) (some c) rest
      | (branches, before) :: outer =>
        readTokens options fuel
          { r with tokens := [], choices := (r.tokens.reverse :: branches, before) :: outer }
          (some c) rest
    | '\\' =>
      match rest with
      | [] => none
      | d :: rest => readTokens options fuel (r.push (.literal d)) (some d) rest
    | c => readTokens options fuel (r.push (.literal c)) (some c) rest

/-- The pattern that a text stands for, if it stands for one. -/
def parse? (text : String) (options : GlobOptions) : Option Glob :=
  let cs := text.toList
  (readTokens options cs.length {} none cs).map fun tokens => ⟨tokens, options⟩

/-! ## Matching -/

/-- All ends of a list, the longest first. -/
def ends : List UInt8 → List (List UInt8)
  | [] => [[]]
  | b :: rest => (b :: rest) :: ends rest

/-- The ends of a list up to the first separator. -/
def endsWithinName : List UInt8 → List (List UInt8)
  | [] => [[]]
  | b :: rest => (b :: rest) :: (if b = 0x2F then [] else endsWithinName rest)

/-- The ends that follow some separator. -/
def endsAfterSeparator : List UInt8 → List (List UInt8)
  | [] => []
  | b :: rest => if b = 0x2F then rest :: endsAfterSeparator rest else endsAfterSeparator rest

/-- Drops octets from the front if they are the given ones. -/
def dropOctets : List UInt8 → List UInt8 → List (List UInt8)
  | [], rest => [rest]
  | p :: ps, b :: bs => if p = b then dropOctets ps bs else []
  | _ :: _, [] => []

/-- The octet ranges that a range of characters stands for: the last octet of the one end and the
    first octet of the other bound a range, and all other octets stand for themselves. -/
def octetRanges (low high : Char) : List (UInt8 × UInt8) :=
  let own (bs : List UInt8) := bs.map fun b => (b, b)
  let ls := String.utf8EncodeChar low
  let hs := String.utf8EncodeChar high
  if low = high then own ls
  else
    match ls.getLast?, hs with
    | some l, h :: rest => own ls.dropLast ++ (l, h) :: own rest
    | _, _ => []

/-- Whether an octet belongs to a class. -/
def classHolds (negated : Bool) (ranges : List (Char × Char)) (b : UInt8) : Bool :=
  let inside := ranges.any fun (low, high) =>
    (octetRanges low high).any fun (l, h) => l ≤ b && b ≤ h
  inside != negated

/-- Keeps one of several ends of the same length; ends of one list are equal when their lengths
    are. -/
def distinctEnds (rests : List (List UInt8)) : List (List UInt8) :=
  rests.foldr (fun r kept => if kept.any (·.length == r.length) then kept else r :: kept) []

mutual

/-- Whether a token stands for nothing at all. -/
def isVoid : GlobToken → Bool
  | .choice branches => allVoid branches
  | _ => false

def branchVoid : List GlobToken → Bool
  | [] => true
  | t :: ts => isVoid t && branchVoid ts

def allVoid : List (List GlobToken) → Bool
  | [] => true
  | branch :: branches => branchVoid branch && allVoid branches

end

mutual

/-- What may be left of a path after a token. -/
def afterToken (options : GlobOptions) (path : List UInt8) : GlobToken → List (List UInt8)
  | .literal c => dropOctets (String.utf8EncodeChar c) path
  | .any =>
    match path with
    | [] => []
    | b :: rest => if options.literalSeparator && b == 0x2F then [] else [rest]
  | .star => if options.literalSeparator then endsWithinName path else ends path
  | .anyPrefix => path :: endsAfterSeparator path
  | .anySuffix =>
    match path with
    | [] => []
    | b :: rest => if b = 0x2F then ends rest else []
  | .anyInfix =>
    match path with
    | [] => []
    | b :: rest => if b = 0x2F then rest :: endsAfterSeparator rest else []
  | .oneOf negated ranges =>
    match path with
    | [] => []
    | b :: rest => if classHolds negated ranges b then [rest] else []
  | .choice branches =>
    -- a branch that stands for nothing is no branch
    if allVoid branches then [path] else distinctEnds (afterBranches options path branches)

/-- What may be left of a path after some branch of a choice. -/
def afterBranches (options : GlobOptions) (path : List UInt8) :
    List (List GlobToken) → List (List UInt8)
  | [] => []
  | branch :: branches =>
    (if branchVoid branch then [] else afterTokens options [path] branch)
      ++ afterBranches options path branches

/-- What may be left after a list of tokens, of any of several lists. -/
def afterTokens (options : GlobOptions) (paths : List (List UInt8)) :
    List GlobToken → List (List UInt8)
  | [] => paths
  | t :: ts =>
    afterTokens options (distinctEnds (paths.flatMap fun path => afterToken options path t)) ts

end

/-- Whether a pattern is `**` alone, which stands for every path. -/
def isEverything (g : Glob) : Bool :=
  match g.tokens with
  | [.anyPrefix] => true
  | _ => false

def isMatch (g : Glob) (path : String) : Bool :=
  g.isEverything || (afterTokens g.options [Utf8.encodeString path] g.tokens).any List.isEmpty

end Glob

end LanguageClient
