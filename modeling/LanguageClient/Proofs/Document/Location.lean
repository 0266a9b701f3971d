import LanguageClient.Document.Location
import LanguageClient.Proofs.Text.Numeral
import LanguageClient.Proofs.Text.Utf8
/-!
# Locations are read back

The colon that ends the file of a location is the first one, past the name of a drive, that a digit or
a minus sign follows.  `Separates` says so, and `splitFileOrDrive` finds it.

A text is cut there by the number of octets before the colon.  `splitByOctets` is the same search with
places counted in octets, where a cut within a character has no result; it has one for every text.

A file, a line and a column that are written as a location are read back, unless the file is a single
letter: that is taken for a drive.
-/

namespace LanguageClient.Location

variable {cs file rest : List Char} {c : Char} {input : String}

/-! ## The colon that ends the file -/

/-- A position may begin here. -/
def Begins (rest : List Char) : Prop :=
  rest.head?.any beginsPosition = true

instance (rest : List Char) : Decidable (Begins rest) :=
  inferInstanceAs (Decidable (_ = true))

/-- The name of a drive that a text begins with, if there is one and something follows. -/
def drive : List Char → List Char
  | a :: ':' :: _ :: _ => if isLetter a then [a, ':'] else []
  | _ => []

/-- No colon among the characters of `file` is followed by the beginning of a position, when `rest`
    comes behind them. -/
def NoneIn (file rest : List Char) : Prop :=
  ∀ before after, file = before ++ ':' :: after → ¬ Begins (after ++ rest)

/-- A colon ends the file of a location: a position may begin behind it, and behind no colon earlier,
    those of a drive left out. -/
def Separates (cs file rest : List Char) : Prop :=
  ∃ name, file = drive cs ++ name ∧ cs = file ++ ':' :: rest ∧ Begins rest ∧ NoneIn name (':' :: rest)

theorem NoneIn.tail (none : NoneIn (c :: file) rest) : NoneIn file rest := by
  intro before after split
  apply none (c :: before) after
  rw [split]
  rfl

theorem NoneIn.cons (none : NoneIn file rest) (first : c = ':' → ¬ Begins (file ++ rest)) :
    NoneIn (c :: file) rest := by
  intro before after split
  cases before with
  | nil =>
    cases split
    exact first rfl
  | cons d before =>
    cases split
    exact none before after rfl

theorem splitFile_ends (begins : Begins rest) : splitFile (':' :: rest) = some ([], rest) := by
  rw [splitFile, if_pos ⟨rfl, begins⟩]

theorem splitFile_cons (goes : ¬ (c = ':' ∧ Begins cs)) :
    splitFile (c :: cs) = (splitFile cs).map fun (file, position) => (c :: file, position) :=
  if_neg goes

theorem splitFile_append (begins : Begins rest) (none : NoneIn file (':' :: rest)) :
    splitFile (file ++ ':' :: rest) = some (file, rest) := by
  induction file with
  | nil => exact splitFile_ends begins
  | cons c file ih =>
    have goes : ¬ (c = ':' ∧ Begins (file ++ ':' :: rest)) := by
      rintro ⟨rfl, early⟩
      exact none [] file rfl early
    rw [List.cons_append, splitFile_cons goes, ih none.tail]
    rfl

theorem of_splitFile (split : splitFile cs = some (file, rest)) :
    cs = file ++ ':' :: rest ∧ Begins rest ∧ NoneIn file (':' :: rest) := by
  induction cs generalizing file with
  | nil => cases split
  | cons c cs ih =>
    by_cases ends : c = ':' ∧ Begins cs
    · obtain ⟨rfl, begins⟩ := ends
      rw [splitFile_ends begins] at split
      cases split
      refine ⟨rfl, begins, ?_⟩
      intro before after split
      cases before <;> cases split
    · rw [splitFile_cons ends] at split
      obtain ⟨⟨file', rest'⟩, found, same⟩ := Option.map_eq_some_iff.mp split
      cases same
      obtain ⟨rfl, begins, none⟩ := ih found
      refine ⟨rfl, begins, none.cons ?_⟩
      intro colon early
      exact ends ⟨colon, early⟩

theorem splitFileOrDrive_eq (cs : List Char) :
    ∃ searched, cs = drive cs ++ searched ∧
      splitFileOrDrive cs = (splitFile searched).map fun (name, rest) => (drive cs ++ name, rest) := by
  fun_cases splitFileOrDrive cs with
  | case1 a c rest letter =>
    have name : drive (a :: ':' :: c :: rest) = [a, ':'] := if_pos letter
    refine ⟨c :: rest, ?_, ?_⟩
    · rw [name]
      rfl
    · rw [name]
      rfl
  | case2 a c rest other =>
    have name : drive (a :: ':' :: c :: rest) = [] := if_neg other
    refine ⟨a :: ':' :: c :: rest, ?_, ?_⟩
    · rw [name]
      rfl
    · rw [name]
      exact Option.map_id'.symm
  | case3 cs other =>
    have name : drive cs = [] := by
      unfold drive
      split
      · next a c rest => exact (other a c rest rfl).elim
      · rfl
    refine ⟨cs, ?_, ?_⟩
    · rw [name]
      rfl
    · rw [name]
      exact Option.map_id'.symm

theorem splitFileOrDrive_eq_some_iff :
    splitFileOrDrive cs = some (file, rest) ↔ Separates cs file rest := by
  obtain ⟨searched, whole, split⟩ := splitFileOrDrive_eq cs
  rw [split, Option.map_eq_some_iff]
  constructor
  · rintro ⟨⟨name, rest'⟩, found, same⟩
    cases same
    obtain ⟨rfl, begins, none⟩ := of_splitFile found
    refine ⟨name, rfl, ?_, begins, none⟩
    rw [List.append_assoc]
    exact whole
  · rintro ⟨name, rfl, whole', begins, none⟩
    have same : searched = name ++ ':' :: rest := by
      have both : drive cs ++ searched = drive cs ++ (name ++ ':' :: rest) := by
        rw [← whole, ← List.append_assoc]
        exact whole'
      exact List.append_cancel_left both
    refine ⟨(name, rest), ?_, rfl⟩
    rw [same]
    exact splitFile_append begins none

/-! ## Cutting by octets -/

/-- What follows the first octets of a text, if no character lies on both sides. -/
def after? : Nat → List Char → Option (List Char)
  | 0, cs => some cs
  | _ + 1, [] => none
  | n + 1, c :: cs => if c.utf8Size ≤ n + 1 then after? (n + 1 - c.utf8Size) cs else none

/-- What the first octets of a text are, if no character lies on both sides. -/
def before? : Nat → List Char → Option (List Char)
  | 0, _ => some []
  | _ + 1, [] => none
  | n + 1, c :: cs =>
    if c.utf8Size ≤ n + 1 then (before? (n + 1 - c.utf8Size) cs).map (c :: ·) else none

def isLetterOctet (b : UInt8) : Bool :=
  (0x61 ≤ b && b ≤ 0x7A) || (0x41 ≤ b && b ≤ 0x5A)

def driveOctets : List UInt8 → Nat
  | a :: b :: _ :: _ => if b = 0x3A ∧ isLetterOctet a then 2 else 0
  | _ => 0

/-- The place of the first colon that ends the file, in octets; `searched` stands behind `place` octets
    of the text. -/
def findColon (cs : List Char) (place : Nat) : (searched : List Char) → Option (Option Nat)
  | [] => some none
  | c :: searched =>
    if c = ':' then do
      let rest ← after? (place + 1) cs
      if Begins rest then return some place
      findColon cs (place + c.utf8Size) searched
    else findColon cs (place + c.utf8Size) searched

/-- The file and the position, cut at places that are counted in octets; `none` for a cut within a
    character. -/
def splitByOctets (cs : List Char) : Option (Option (List Char × List Char)) := do
  let start := driveOctets (Utf8.encode cs)
  let searched ← after? start cs
  match ← findColon cs start searched with
  | none => return none
  | some place =>
    let file ← before? place cs
    let rest ← after? (place + 1) cs
    return some (file, rest)

def size (cs : List Char) : Nat :=
  (Utf8.encode cs).length

theorem size_cons (c : Char) (cs : List Char) : size (c :: cs) = c.utf8Size + size cs := by
  rw [size, Utf8.encode_cons, List.length_append, String.length_utf8EncodeChar, size]

theorem size_append (a b : List Char) : size (a ++ b) = size a + size b := by
  rw [size, Utf8.encode_append, List.length_append, size, size]

theorem after?_size (a b : List Char) : after? (size a) (a ++ b) = some b := by
  induction a with
  | nil => rw [List.nil_append]; exact after?.eq_1 b
  | cons c a ih =>
    have positive := c.utf8Size_pos
    obtain ⟨n, count⟩ : ∃ n, size (c :: a) = n + 1 := ⟨size (c :: a) - 1, by rw [size_cons]; omega⟩
    have left : n + 1 - c.utf8Size = size a := by
      rw [size_cons] at count
      omega
    rw [count, List.cons_append, after?, if_pos (by rw [size_cons] at count; omega), left, ih]

theorem before?_size (a b : List Char) : before? (size a) (a ++ b) = some a := by
  induction a with
  | nil => exact before?.eq_1 _
  | cons c a ih =>
    have positive := c.utf8Size_pos
    obtain ⟨n, count⟩ : ∃ n, size (c :: a) = n + 1 := ⟨size (c :: a) - 1, by rw [size_cons]; omega⟩
    have left : n + 1 - c.utf8Size = size a := by
      rw [size_cons] at count
      omega
    rw [count, List.cons_append, before?, if_pos (by rw [size_cons] at count; omega), left, ih]
    rfl

theorem size_concat (a : List Char) (c : Char) : size (a ++ [c]) = size a + c.utf8Size := by
  rw [size_append, size_cons]
  rfl

theorem after?_colon (a b : List Char) : after? (size a + 1) (a ++ ':' :: b) = some b := by
  have colon : size a + 1 = size (a ++ [':']) := (size_concat a ':').symm
  rw [colon]
  simpa using after?_size (a ++ [':']) b

/-- The search by octets finds the colon that the search by characters finds. -/
theorem findColon_eq (a b : List Char) :
    findColon (a ++ b) (size a) b = some ((splitFile b).map fun (file, _) => size (a ++ file)) := by
  -- What has been searched goes over to `a` one character at a time, so the whole text stays the same.
  induction b generalizing a with
  | nil => rfl
  | cons c b ih =>
    have on : findColon (a ++ c :: b) (size a + c.utf8Size) b
        = some ((splitFile b).map fun (file, _) => size (a ++ c :: file)) := by
      have moved := ih (a ++ [c])
      rw [size_concat] at moved
      simpa using moved
    by_cases colon : c = ':'
    · subst colon
      rw [findColon, if_pos rfl, after?_colon]
      by_cases begins : Begins b
      · rw [splitFile_ends begins]
        simp [begins]
      · have goes : ¬ (':' = ':' ∧ Begins b) := fun both => begins both.2
        rw [splitFile_cons goes]
        simp [begins, on, Function.comp_def]
    · have goes : ¬ (c = ':' ∧ Begins b) := fun both => colon both.1
      rw [findColon, if_neg colon, on, splitFile_cons goes, Option.map_map]
      rfl

/-! ### The name of a drive in octets -/

theorem isLetterOctet_eq (b : UInt8) : isLetterOctet b = isLetter (Char.ofNat b.toNat) := by
  have all : ∀ k : Fin 256, isLetterOctet (UInt8.ofNat k) = isLetter (Char.ofNat k) := by
    decide +kernel
  have same := all ⟨b.toNat, b.toNat_lt⟩
  rwa [UInt8.ofNat_toNat] at same

theorem toNat_of_isLetterOctet {b : UInt8} (letter : isLetterOctet b = true) : b.toNat < 0x80 := by
  simp only [isLetterOctet, Bool.or_eq_true, Bool.and_eq_true, decide_eq_true_eq] at letter
  rcases letter with ⟨-, high⟩ | ⟨-, high⟩
  · have : b.toNat ≤ 0x7A := high
    omega
  · have : b.toNat ≤ 0x5A := high
    omega

theorem toNat_of_isLetter (letter : isLetter c = true) : c.toNat < 0x80 := by
  simp only [isLetter, Bool.or_eq_true, Bool.and_eq_true, decide_eq_true_eq] at letter
  rcases letter with ⟨-, high⟩ | ⟨-, high⟩
  · have : c.toNat ≤ 0x7A := high
    omega
  · have : c.toNat ≤ 0x5A := high
    omega

/-- An octet below 0x80 at the beginning of a text is its first character. -/
theorem of_encode_eq_cons {b : UInt8} {octets : List UInt8} (ascii : b.toNat < 0x80)
    (whole : Utf8.encode cs = b :: octets) :
    ∃ rest, cs = Char.ofNat b.toNat :: rest ∧ octets = Utf8.encode rest := by
  have read : cs = Char.ofNat b.toNat :: Utf8.decodeLossy octets := by
    rw [← Utf8.decodeLossy_encode cs, whole]
    exact Utf8.decodeLossy_append_ascii ascii [] octets
  have value : (Char.ofNat b.toNat).toNat = b.toNat := Utf8.toNat_charOfNat (Or.inl (by omega))
  refine ⟨_, read, ?_⟩
  rw [read, Utf8.encode_cons, Utf8.utf8EncodeChar_one (by omega), value, UInt8.ofNat_toNat] at whole
  exact (List.cons.inj whole).2.symm

theorem driveOctets_of_letter (letter : isLetter c = true) {d : Char} :
    driveOctets (Utf8.encode (c :: ':' :: d :: rest)) = 2 := by
  have ascii := toNat_of_isLetter letter
  have octet : isLetterOctet (UInt8.ofNat c.toNat) = true := by
    rw [isLetterOctet_eq, UInt8.toNat_ofNat', Nat.mod_eq_of_lt (by omega), Char.ofNat_toNat]
    exact letter
  have more : (String.utf8EncodeChar d).length ≠ 0 := by
    rw [String.length_utf8EncodeChar]
    exact d.utf8Size_pos.ne'
  rw [Utf8.encode_cons, Utf8.encode_cons, Utf8.encode_cons, Utf8.utf8EncodeChar_one ascii]
  cases octets : String.utf8EncodeChar d with
  | nil =>
    rw [octets] at more
    exact absurd rfl more
  | cons e more => exact if_pos ⟨rfl, octet⟩

theorem exists_of_driveOctets (some : driveOctets (Utf8.encode cs) ≠ 0) :
    ∃ a c rest, cs = a :: ':' :: c :: rest ∧ isLetter a = true := by
  unfold driveOctets at some
  split at some
  · next a b e octets whole =>
    split at some
    · next both =>
      obtain ⟨rfl, letter⟩ := both
      have ascii := toNat_of_isLetterOctet letter
      rw [isLetterOctet_eq] at letter
      obtain ⟨rest, rfl, tail⟩ := of_encode_eq_cons ascii whole
      obtain ⟨rest, rfl, tail⟩ := of_encode_eq_cons (by decide) tail.symm
      cases rest with
      | nil => cases tail
      | cons c rest => exact ⟨_, c, rest, rfl, letter⟩
    · exact absurd rfl some
  · exact absurd rfl some

theorem driveOctets_encode (cs : List Char) : driveOctets (Utf8.encode cs) = size (drive cs) := by
  unfold drive
  split
  · next a c rest =>
    by_cases letter : isLetter a = true
    · have one : a.utf8Size = 1 := by
        rw [← String.length_utf8EncodeChar, Utf8.utf8EncodeChar_one (toNat_of_isLetter letter)]
        rfl
      rw [if_pos letter, driveOctets_of_letter letter, size_cons, size_cons, one]
      rfl
    · rw [if_neg letter]
      by_contra some
      obtain ⟨a', c', rest', same, letter'⟩ := exists_of_driveOctets some
      cases same
      exact letter letter'
  · next other =>
    by_contra some
    obtain ⟨a, c, rest, same, -⟩ := exists_of_driveOctets some
    exact other a c rest same

/-- **No cut within a character.**  Places counted in octets lead to the same file and position. -/
theorem splitByOctets_eq (cs : List Char) : splitByOctets cs = some (splitFileOrDrive cs) := by
  obtain ⟨searched, whole, split⟩ := splitFileOrDrive_eq cs
  have start : after? (driveOctets (Utf8.encode cs)) cs = some searched := by
    rw [driveOctets_encode]
    have found := after?_size (drive cs) searched
    rwa [← whole] at found
  have colon := findColon_eq (drive cs) searched
  rw [← whole, ← driveOctets_encode] at colon
  rw [splitByOctets]
  simp only [start, colon, split, Option.bind_eq_bind, Option.bind_some]
  cases found : splitFile searched with
  | none => rfl
  | some both =>
    obtain ⟨name, rest⟩ := both
    obtain ⟨ends, -, -⟩ := of_splitFile found
    have text : cs = (drive cs ++ name) ++ ':' :: rest := by
      rw [List.append_assoc, ← ends]
      exact whole
    have file : before? (size (drive cs ++ name)) cs = some (drive cs ++ name) := by
      have cut := before?_size (drive cs ++ name) (':' :: rest)
      rwa [← text] at cut
    have position : after? (size (drive cs ++ name) + 1) cs = some rest := by
      have cut := after?_colon (drive cs ++ name) rest
      rwa [← text] at cut
    simp [file, position]

/-! ## Reading a position -/

variable {lineText columnText : List Char} {line column : Nat} {l : Location}

theorem readPosition_line (colonless : ':' ∉ lineText) (read : number? lineText = some line) :
    readPosition lineText = if line = 0 then .error .zeroLine else .ok (line, 1) := by
  rw [readPosition, Text.splitOnce_eq_none colonless]
  simp only [read, Option.map_none]
  rfl

theorem readPosition_both (colonless : ':' ∉ lineText) (read : number? lineText = some line)
    (read' : number? columnText = some column) :
    readPosition (lineText ++ ':' :: columnText) =
      if line = 0 then .error .zeroLine else if column = 0 then .error .zeroColumn
      else .ok (line, column) := by
  rw [readPosition, Text.splitOnce_append_cons _ colonless]
  simp only [read, read', Option.map_some]
  rfl

theorem readPosition_badLine {tail : List Char} (colonless : ':' ∉ lineText)
    (cut : tail = [] ∨ ∃ columnText, tail = ':' :: columnText) (bad : number? lineText = none) :
    readPosition (lineText ++ tail) = .error (.badLine (String.ofList lineText)) := by
  rcases cut with rfl | ⟨columnText, rfl⟩
  · rw [List.append_nil, readPosition, Text.splitOnce_eq_none colonless]
    simp only [bad]
    rfl
  · rw [readPosition, Text.splitOnce_append_cons _ colonless]
    simp only [bad]
    rfl

theorem readPosition_badColumn (colonless : ':' ∉ lineText) (read : number? lineText = some line)
    (bad : number? columnText = none) :
    readPosition (lineText ++ ':' :: columnText)
      = .error (.badColumn (String.ofList columnText)) := by
  rw [readPosition, Text.splitOnce_append_cons _ colonless]
  simp only [read, bad, Option.map_some]
  rfl

/-- A text has no colon, or is cut by its first one. -/
theorem exists_first_colon (cs : List Char) :
    ∃ lineText, ':' ∉ lineText ∧
      (cs = lineText ∨ ∃ columnText, cs = lineText ++ ':' :: columnText) := by
  induction cs with
  | nil => exact ⟨[], List.not_mem_nil, Or.inl rfl⟩
  | cons c cs ih =>
    by_cases colon : c = ':'
    · subst colon
      exact ⟨[], List.not_mem_nil, Or.inr ⟨cs, rfl⟩⟩
    · obtain ⟨lineText, colonless, cut⟩ := ih
      refine ⟨c :: lineText, ?_, ?_⟩
      · rw [List.mem_cons, not_or]
        exact ⟨Ne.symm colon, colonless⟩
      · rcases cut with rfl | ⟨columnText, rfl⟩
        · exact Or.inl rfl
        · exact Or.inr ⟨columnText, rfl⟩

theorem le_of_number? (read : number? cs = some line) : line ≤ Numeral.maxWord32 := by
  rw [number?, Numeral.natural?, Option.filter_eq_some_iff] at read
  simpa using read.2

/-- What is read as a position are two numbers, or a number for the line alone; neither is zero. -/
theorem of_readPosition (read : readPosition rest = .ok (line, column)) :
    (line ≠ 0 ∧ line ≤ Numeral.maxWord32) ∧ (column ≠ 0 ∧ column ≤ Numeral.maxWord32) := by
  -- what is up to the first colon is the line, if it is a number
  obtain ⟨lineText, colonless, cut⟩ := exists_first_colon rest
  cases readLine : number? lineText with
  | none =>
    rcases cut with rfl | ⟨columnText, rfl⟩
    · have bad := readPosition_badLine colonless (Or.inl rfl) readLine
      rw [List.append_nil, read] at bad
      cases bad
    · rw [readPosition_badLine colonless (Or.inr ⟨columnText, rfl⟩) readLine] at read
      cases read
  | some n =>
    have bound := le_of_number? readLine
    rcases cut with rfl | ⟨columnText, rfl⟩
    · rw [readPosition_line colonless readLine] at read
      split at read
      · cases read
      · next positive =>
        cases read
        exact ⟨⟨positive, bound⟩, by decide⟩
    · cases readColumn : number? columnText with
      | none =>
        rw [readPosition_badColumn colonless readLine readColumn] at read
        cases read
      | some m =>
        rw [readPosition_both colonless readLine readColumn] at read
        split at read
        · cases read
        · next positive =>
          split at read
          · cases read
          · next positive' =>
            cases read
            exact ⟨⟨positive, bound⟩, positive', le_of_number? readColumn⟩

/-! ## Reading a location -/

theorem parse_of_separates (separates : Separates (Text.trimChars input.toList) file rest) :
    parse input = if rest.head? = some '-' then .error .negativeLine else
      (readPosition rest).map fun (line, column) =>
        ⟨String.ofList file, UInt32.ofNat line, UInt32.ofNat column⟩ := by
  have split := splitFileOrDrive_eq_some_iff.mpr separates
  obtain ⟨name, -, whole, -⟩ := separates
  have some : (Text.trimChars input.toList).isEmpty = false := by
    rw [whole]
    cases file <;> rfl
  rw [parse]
  simp only [some, split]
  by_cases minus : rest.head? = Option.some '-'
  · rw [if_pos minus, if_pos minus]
    rfl
  · rw [if_neg minus, if_neg minus]
    cases readPosition rest <;> rfl

theorem parse_of_not_separates
    (none : ∀ file rest, ¬ Separates (Text.trimChars input.toList) file rest) :
    parse input = .error .empty ∨ parse input = .error .noPosition := by
  have split : splitFileOrDrive (Text.trimChars input.toList) = Option.none := by
    cases found : splitFileOrDrive (Text.trimChars input.toList) with
    | none => rfl
    | some both => exact absurd (splitFileOrDrive_eq_some_iff.mp found) (none both.1 both.2)
  rw [parse]
  simp only [split]
  split
  · exact Or.inl rfl
  · exact Or.inr rfl

theorem one_le_ofNat (positive : line ≠ 0) (bound : line ≤ Numeral.maxWord32) :
    1 ≤ UInt32.ofNat line := by
  have value : (UInt32.ofNat line).toNat = line := by
    apply UInt32.toNat_ofNat_of_lt'
    exact Nat.lt_of_le_of_lt bound (by decide)
  rw [UInt32.le_iff_toNat_le, value]
  exact Nat.one_le_iff_ne_zero.mpr positive

theorem one_le_of_parse (parsed : parse input = .ok l) : 1 ≤ l.line ∧ 1 ≤ l.column := by
  by_cases found : ∃ file rest, Separates (Text.trimChars input.toList) file rest
  · obtain ⟨file, rest, separates⟩ := found
    rw [parse_of_separates separates] at parsed
    split at parsed
    · cases parsed
    · cases read : readPosition rest with
      | error e =>
        rw [read] at parsed
        cases parsed
      | ok counted =>
        obtain ⟨line, column⟩ := counted
        rw [read] at parsed
        cases parsed
        obtain ⟨⟨line, bound⟩, column, bound'⟩ := of_readPosition read
        exact ⟨one_le_ofNat line bound, one_le_ofNat column bound'⟩
  · rw [not_exists] at found
    have refused := parse_of_not_separates fun file rest separates => found file ⟨rest, separates⟩
    rw [parsed] at refused
    rcases refused with refused | refused <;> cases refused

/-! ## Writing a location -/

/-- The name of a file that a location can be written for: it has no colon and no blanks around it,
    and cannot be taken for a drive. -/
structure FileName (file : String) : Prop where
  nonempty : file.toList ≠ []
  colonless : ':' ∉ file.toList
  trimmed : Text.trimChars file.toList = file.toList
  noDrive : ∀ c, file.toList = [c] → isLetter c = false

def digits (n : UInt32) : List Char :=
  (toString n.toNat).toList

theorem isDigit_of_mem_digits {n : UInt32} (mem : c ∈ digits n) : c.isDigit = true :=
  Numeral.isDigit_of_mem_toString mem

theorem colon_notMem_digits (n : UInt32) : ':' ∉ digits n := by
  intro mem
  exact absurd (isDigit_of_mem_digits mem) (by decide)

theorem number?_digits (n : UInt32) : number? (digits n) = some n.toNat := by
  have bound : n.toNat ≤ Numeral.maxWord32 := Nat.le_of_lt_succ n.toNat_lt
  rw [number?, digits, String.ofList_toList, Numeral.natural?_toString, if_pos bound]

theorem exists_digit (n : UInt32) : ∃ c more, digits n = c :: more ∧ c.isDigit = true := by
  cases chars : digits n with
  | nil =>
    have read := number?_digits n
    rw [chars] at read
    cases read
  | cons c more =>
    refine ⟨c, more, rfl, isDigit_of_mem_digits (n := n) ?_⟩
    rw [chars]
    exact List.mem_cons_self

theorem begins_digits (n : UInt32) (more : List Char) : Begins (digits n ++ more) := by
  obtain ⟨c, rest, chars, digit⟩ := exists_digit n
  rw [chars, Begins, List.cons_append, List.head?_cons, Option.any_some, beginsPosition,
    Numeral.isDigit, Numeral.digit?_of_isDigit digit]
  rfl

theorem head?_digits_ne (n : UInt32) (more : List Char) : (digits n ++ more).head? ≠ some '-' := by
  obtain ⟨c, rest, chars, digit⟩ := exists_digit n
  rw [chars, List.cons_append, List.head?_cons]
  intro minus
  cases minus
  exact absurd digit (by decide)

theorem dropWhile_of_trimChars (trimmed : Text.trimChars cs = cs) :
    cs.dropWhile Text.isBlank = cs := by
  apply (List.dropWhile_suffix Text.isBlank).eq_of_length_le
  have shorter := (List.rdropWhile_prefix Text.isBlank (cs.dropWhile Text.isBlank)).length_le
  rwa [← Text.trimChars_eq, trimmed] at shorter

/-- Nothing is trimmed from a file name with visible characters behind a colon. -/
theorem trimChars_written {tail : List Char} (trimmed : Text.trimChars cs = cs)
    (visible : ∀ c ∈ tail, Text.isBlank c = false) :
    Text.trimChars (cs ++ ':' :: tail) = cs ++ ':' :: tail := by
  have kept : tail.rdropWhile Text.isBlank = tail := by
    rw [List.rdropWhile_eq_self_iff]
    intro nonempty
    rw [visible _ (List.getLast_mem nonempty)]
    exact Bool.false_ne_true
  rw [Text.trimChars_append_cons (by decide), dropWhile_of_trimChars trimmed, kept]

theorem FileName.separates {file : String} (name : FileName file) (begins : Begins rest) :
    Separates (file.toList ++ ':' :: rest) file.toList rest := by
  refine ⟨file.toList, ?_, rfl, begins, ?_⟩
  -- A drive would put a colon in the second place: then the file is a single letter.
  · have none : drive (file.toList ++ ':' :: rest) = [] := by
      cases chars : file.toList with
      | nil => exact absurd chars name.nonempty
      | cons a more =>
        have colonless := name.colonless
        rw [chars] at colonless
        cases more with
        | nil =>
          have other := name.noDrive a chars
          cases rest with
          | nil => rfl
          | cons d rest =>
            rw [List.cons_append, List.nil_append, drive, other]
            rfl
        | cons b more =>
          unfold drive
          split
          · next split =>
            obtain ⟨-, split⟩ := List.cons.inj split
            obtain ⟨rfl, -⟩ := List.cons.inj split
            exact absurd (List.mem_cons_of_mem _ List.mem_cons_self) colonless
          · rfl
    rw [none, List.nil_append]
  · intro before after split
    have mem : ':' ∈ file.toList := by
      rw [split]
      exact List.mem_append_right _ List.mem_cons_self
    exact absurd mem name.colonless

theorem FileName.parse_written {file : String} (name : FileName file)
    (visible : ∀ c ∈ rest, Text.isBlank c = false) (begins : Begins rest)
    (positive : rest.head? ≠ some '-') (text : input.toList = file.toList ++ ':' :: rest) :
    parse input = (readPosition rest).map fun (line, column) =>
      ⟨file, UInt32.ofNat line, UInt32.ofNat column⟩ := by
  have separates := name.separates begins
  rw [← trimChars_written name.trimmed visible, ← text] at separates
  rw [parse_of_separates separates, if_neg positive, String.ofList_toList]

theorem isBlank_of_mem_digits {n : UInt32} : ∀ c ∈ digits n, Text.isBlank c = false := by
  intro c mem
  exact Numeral.isBlank_of_isDigit (isDigit_of_mem_digits mem)

theorem FileName.parse_line {file : String} (name : FileName file) {line : UInt32}
    (positive : 1 ≤ line) :
    parse (file ++ ":" ++ toString line.toNat) = .ok ⟨file, line, 1⟩ := by
  have nonzero : line.toNat ≠ 0 := Nat.one_le_iff_ne_zero.mp positive
  have written : (file ++ ":" ++ toString line.toNat).toList = file.toList ++ ':' :: digits line := by
    rw [String.toList_append, String.toList_append, List.append_assoc]
    rfl
  have begins : Begins (digits line) := by
    have begins := begins_digits line []
    rwa [List.append_nil] at begins
  have minus : (digits line).head? ≠ some '-' := by
    have minus := head?_digits_ne line []
    rwa [List.append_nil] at minus
  rw [name.parse_written isBlank_of_mem_digits begins minus written,
    readPosition_line (colon_notMem_digits line) (number?_digits line), if_neg nonzero]
  simp [Except.map]

theorem FileName.parse_both {file : String} (name : FileName file) {line column : UInt32}
    (positive : 1 ≤ line) (positive' : 1 ≤ column) :
    parse (file ++ ":" ++ toString line.toNat ++ ":" ++ toString column.toNat)
      = .ok ⟨file, line, column⟩ := by
  have nonzero : line.toNat ≠ 0 := Nat.one_le_iff_ne_zero.mp positive
  have nonzero' : column.toNat ≠ 0 := Nat.one_le_iff_ne_zero.mp positive'
  have written : (file ++ ":" ++ toString line.toNat ++ ":" ++ toString column.toNat).toList
      = file.toList ++ ':' :: (digits line ++ ':' :: digits column) := by
    simp [digits]
  have visible : ∀ c ∈ digits line ++ ':' :: digits column, Text.isBlank c = false := by
    intro c mem
    rw [List.mem_append, List.mem_cons] at mem
    rcases mem with mem | rfl | mem
    · exact isBlank_of_mem_digits c mem
    · rfl
    · exact isBlank_of_mem_digits c mem
  rw [name.parse_written visible (begins_digits line _) (head?_digits_ne line _) written,
    readPosition_both (colon_notMem_digits line) (number?_digits line) (number?_digits column),
    if_neg nonzero, if_neg nonzero']
  simp [Except.map]

theorem position_eq (positive : 1 ≤ l.line) (positive' : 1 ≤ l.column) :
    l.position = ⟨l.line - 1, l.column - 1⟩ := by
  have before : ∀ n : UInt32, 1 ≤ n → UInt32.ofNat (n.toNat - 1) = n - 1 := by
    intro n counted
    apply UInt32.toNat_inj.mp
    rw [UInt32.toNat_sub_of_le n 1 counted, UInt32.toNat_ofNat_of_lt']
    · rfl
    · exact Nat.lt_of_le_of_lt (Nat.sub_le _ _) n.toNat_lt
  rw [position, Position.ofUser, before l.line positive, before l.column positive']

/-- **Locations are read back.**  A file, a line and a column that are written as a location are read
    from it, and so are a file and a line.  Whatever text is read as a location, line and column count
    from one; it is never cut within a character; and it is refused if what follows the colon that ends
    the file, or the next one, is no number. -/
theorem written_is_read {file : String} (name : FileName file) {line column : UInt32}
    (counted : 1 ≤ line ∧ 1 ≤ column) :
    (parse (file ++ ":" ++ toString line.toNat ++ ":" ++ toString column.toNat)
        = .ok ⟨file, line, column⟩ ∧
      parse (file ++ ":" ++ toString line.toNat) = .ok ⟨file, line, 1⟩ ∧
      (⟨file, line, column⟩ : Location).position = ⟨line - 1, column - 1⟩) ∧
    ∀ input : String,
      (∀ l, parse input = .ok l → 1 ≤ l.line ∧ 1 ≤ l.column) ∧
      splitByOctets (Text.trimChars input.toList)
        = some (splitFileOrDrive (Text.trimChars input.toList)) ∧
      ((∀ file rest, ¬ Separates (Text.trimChars input.toList) file rest) →
        parse input = .error .empty ∨ parse input = .error .noPosition) ∧
      ∀ file rest, Separates (Text.trimChars input.toList) file rest →
        (rest.head? = some '-' → parse input = .error .negativeLine) ∧
        (rest.head? ≠ some '-' → ∀ lineText tail, rest = lineText ++ tail → ':' ∉ lineText →
          (tail = [] ∨ ∃ columnText, tail = ':' :: columnText) → number? lineText = none →
          parse input = .error (.badLine (String.ofList lineText))) ∧
        (rest.head? ≠ some '-' → ∀ lineText columnText line,
          rest = lineText ++ ':' :: columnText → ':' ∉ lineText →
          number? lineText = some line → number? columnText = none →
          parse input = .error (.badColumn (String.ofList columnText))) := by
  refine ⟨⟨name.parse_both counted.1 counted.2, name.parse_line counted.1,
    position_eq counted.1 counted.2⟩, ?_⟩
  intro input
  refine ⟨fun l => one_le_of_parse, splitByOctets_eq _, parse_of_not_separates, ?_⟩
  intro file rest separates
  rw [parse_of_separates separates]
  refine ⟨fun minus => if_pos minus, ?_, ?_⟩
  · intro minus lineText tail written colonless cut bad
    rw [if_neg minus, written, readPosition_badLine colonless cut bad]
    rfl
  · intro minus lineText columnText line written colonless read bad
    rw [if_neg minus, written, readPosition_badColumn colonless read bad]
    rfl

theorem written_is_read_spaced : FileName "my dir/ä.rs" ∧
    parse "my dir/ä.rs:12:4294967295" = .ok ⟨"my dir/ä.rs", 12, 4294967295⟩ := by
  have name : FileName "my dir/ä.rs" :=
    { nonempty := by decide +kernel
      colonless := by decide +kernel
      trimmed := by decide +kernel
      noDrive := by
        intro c one
        have length : "my dir/ä.rs".toList.length = 1 := congrArg List.length one
        exact absurd length (by decide +kernel) }
  have counted : (1 : UInt32) ≤ 12 ∧ (1 : UInt32) ≤ 4294967295 := by decide
  exact ⟨name, (written_is_read name counted).1.1⟩

/-- A letter before the first colon is taken for a drive, and the colon does not end the file. -/
theorem letter_is_drive :
    parse "a:1:2" = .ok ⟨"a:1", 2, 1⟩ ∧ parse "a:1:2" ≠ .ok ⟨"a", 1, 2⟩ ∧
      parse "a:1" = .error .noPosition := by
  refine ⟨by decide +kernel, by decide +kernel, by decide +kernel⟩

end LanguageClient.Location
