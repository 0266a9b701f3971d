/-!
# Parts of texts

The characters of the Unicode property `White_Space`, what trimming by them leaves, the pieces into
which a text is split, and what comes of a text when parts of it are replaced.
-/

namespace LanguageClient.Text

/-! ## Blanks and pieces -/

/-- The property `White_Space`. -/
def isBlank (c : Char) : Bool :=
  let n := c.toNat
  (0x09 ≤ n && n ≤ 0x0D) || n == 0x20 || n == 0x85 || n == 0xA0 || n == 0x1680
    || (0x2000 ≤ n && n ≤ 0x200A) || n == 0x2028 || n == 0x2029 || n == 0x202F || n == 0x205F
    || n == 0x3000

/-- A text without the blanks before and after it. -/
def trimChars (cs : List Char) : List Char :=
  ((cs.dropWhile isBlank).reverse.dropWhile isBlank).reverse

def trim (s : String) : String :=
  String.ofList (trimChars s.toList)

/-- The lower-case form of an ASCII letter; every other character is kept. -/
def lowerAscii (c : Char) : Char :=
  if 'A' ≤ c ∧ c ≤ 'Z' then Char.ofNat (c.toNat + 32) else c

/-- Whether two strings differ at most in the case of ASCII letters. -/
def sameIgnoringAsciiCase (s t : String) : Bool :=
  s.toList.map lowerAscii == t.toList.map lowerAscii

/-- The part before the first separator and the part after it, if there is one. -/
def splitOnce (sep : Char) : List Char → Option (List Char × List Char)
  | [] => none
  | c :: rest =>
    if c = sep then some ([], rest)
    else (splitOnce sep rest).map fun (before, after) => (c :: before, after)

/-- The part before the last separator and the part after it, if there is one. -/
def splitLast (sep : Char) (cs : List Char) : Option (List Char × List Char) :=
  (splitOnce sep cs.reverse).map fun (after, before) => (before.reverse, after.reverse)

/-- What follows a given beginning. -/
def dropPrefix? : List Char → List Char → Option (List Char)
  | [], rest => some rest
  | p :: ps, c :: cs => if p = c then dropPrefix? ps cs else none
  | _ :: _, [] => none

/-- The pieces between separators; one more than there are separators. -/
def splitAll (sep : Char) : List Char → List (List Char)
  | [] => [[]]
  | c :: rest =>
    if c = sep then [] :: splitAll sep rest
    else
      match splitAll sep rest with
      | [] => [[c]]
      | piece :: pieces => (c :: piece) :: pieces

/-- The words between blanks. -/
def words (cs : List Char) : List (List Char) :=
  (splitAll ' ' (cs.map fun c => if isBlank c then ' ' else c)).filter (!·.isEmpty)

def startsWith (p s : String) : Bool :=
  (dropPrefix? p.toList s.toList).isSome

/-! ## Replacing -/

/-- Puts `new` in the place of every occurrence of `old`, from the left.  Each step takes characters
    off the text, so that its length is fuel enough. -/
def replaceChars (old new : List Char) (fuel : Nat) (cs : List Char) : List Char :=
  match fuel, cs with
  | 0, _ => cs
  | _, [] => []
  | fuel + 1, c :: rest =>
    match dropPrefix? old (c :: rest) with
    | some rest => new ++ replaceChars old new fuel rest
    | none => c :: replaceChars old new fuel rest

/-- Puts `new` in the place of every occurrence of `old`, from the left. -/
def replace (old new s : String) : String :=
  String.ofList (replaceChars old.toList new.toList s.length s.toList)

/-- The part before the first occurrence of a mark and the part after it, if there is one. -/
def splitAtMark (mark : List Char) : List Char → Option (List Char × List Char)
  | [] => if mark.isEmpty then some ([], []) else none
  | c :: rest =>
    match dropPrefix? mark (c :: rest) with
    | some after => some ([], after)
    | none => (splitAtMark mark rest).map fun (before, after) => (c :: before, after)

/-- Cuts a text after the first occurrence of a mark and sets three dots in the place of the rest,
    unless the rest begins with `kept`. -/
def cutAfter (mark kept s : String) : String :=
  match splitAtMark mark.toList s.toList with
  | none => s
  | some (before, after) =>
    if (dropPrefix? kept.toList after).isSome then s
    else String.ofList before ++ mark ++ "..."

end LanguageClient.Text
