import LanguageClient.Proofs.Text.Blank
import LanguageClient.Proofs.Text.Utf8
import LanguageClient.Proofs.Wire.Stream
/-!
# Header lines

A line of a header is blank, tells a length, or is some other header.  Which of them it is, is said
here of the text the line reads as, and the reader is shown to see it so: `headerLine_of_blank`,
`headerLine_of_other`, `headerLine_of_names`.

The reader then goes through a header line by line.  `Standing` is where it stands, by the octets
that are still to come, and `Standing.Reaches` says that it gets from one standing to another; there
is one such lemma for each kind of line, and longer headers are gone through by putting them one
after the other.  The number of steps the reader allows itself is accounted for in `Reaches` and shows
nowhere else.
-/

namespace LanguageClient.FrameReader

/-! ## Lines -/

/-- A line, without the line feed that ends it. -/
structure Line where
  octets : List UInt8
  single : 0x0A ∉ octets

namespace Line

/-- The line and its line feed. -/
def fed (l : Line) : List UInt8 :=
  l.octets ++ [0x0A]

/-- What the line reads as; where it is not UTF-8, U+FFFD stands. -/
def text (l : Line) : List Char :=
  Utf8.decodeLossy l.octets

/-- A line of blanks, such as the carriage return that may come before a line feed. -/
def IsBlank (l : Line) : Prop :=
  ∀ c ∈ l.text, Text.isBlank c = true

/-- The line is the header of the length, in any case and with blanks around its name, and `value`
    is what comes after the colon. -/
def Names (l : Line) (value : List Char) : Prop :=
  ∃ name, l.text = name ++ ':' :: value ∧ (Text.trimChars name).map Text.lowerAscii = lengthHeader

/-- The number a line gives after the colon, read without the blanks around it. -/
def number? (value : List Char) : Option Nat :=
  Numeral.natural? Numeral.maxWord64 (String.ofList (Text.trimChars value))

/-- The line tells the length `n`. -/
def Tells (l : Line) (n : Nat) : Prop :=
  ∃ value, l.Names value ∧ number? value = some n

/-- The line is the header of the length, but tells no number, or one that is too large. -/
def IsUnusable (l : Line) : Prop :=
  ∃ value, l.Names value ∧ ∀ n, number? value = some n → maxContentLength < n

/-- The line says something, and it is not the length. -/
def IsOther (l : Line) : Prop :=
  ¬ l.IsBlank ∧ ∀ value, ¬ l.Names value

end Line

/-- What the reader hears of a line: while it looks for a header, nothing before the name of the
    length header. -/
def Line.heard (l : Line) (resync : Bool) : Option (List Char) :=
  if resync then findLengthHeader (Text.trimChars l.text) else some (Text.trimChars l.text)

/-! ## What the reader sees in a line -/

theorem isBlank_colon : Text.isBlank ':' = false := by
  decide

theorem colon_notMem_lengthHeader : ':' ∉ lengthHeader := by
  decide

theorem colon_notMem_name {name : List Char}
    (h : (Text.trimChars name).map Text.lowerAscii = lengthHeader) : ':' ∉ name := by
  intro mem
  obtain ⟨a, b, rfl⟩ := List.append_of_mem mem
  rw [Text.trimChars_append_cons isBlank_colon, List.map_append, List.map_cons] at h
  exact colon_notMem_lengthHeader (h ▸ List.mem_append_right _ List.mem_cons_self)

theorem lowerAscii_of_isBlank {c : Char} (blank : Text.isBlank c = true) :
    Text.lowerAscii c = c := by
  rw [Text.lowerAscii, if_neg]
  rintro ⟨low, high⟩
  have low : 0x41 ≤ c.toNat := low
  have high : c.toNat ≤ 0x5A := high
  simp only [Text.isBlank, Bool.or_eq_true, Bool.and_eq_true, decide_eq_true_eq,
    beq_iff_eq] at blank
  omega

theorem isBlank_of_mem_name {name : List Char} (named : name.map Text.lowerAscii = lengthHeader) :
    ∀ c ∈ name, Text.isBlank c = false := by
  have solid : lengthHeader.all (!Text.isBlank ·) = true := by decide
  intro c mem
  by_contra blank
  have blank : Text.isBlank c = true := by simpa using blank
  have lower : Text.lowerAscii c ∈ lengthHeader := named ▸ List.mem_map_of_mem mem
  rw [lowerAscii_of_isBlank blank] at lower
  have visible := List.all_eq_true.mp solid c lower
  simp [blank] at visible

theorem headerLine_of_blank {text : List Char} (blank : ∀ c ∈ text, Text.isBlank c = true) :
    headerLine (Text.trimChars text) = .blank := by
  rw [Text.trimChars_eq_nil_iff.mpr blank]
  rfl

theorem headerLine_of_names {name value : List Char}
    (names : (Text.trimChars name).map Text.lowerAscii = lengthHeader) :
    headerLine (Text.trimChars (name ++ ':' :: value)) =
      match Line.number? value with
      | none => .bad .badLength
      | some n => if n > maxContentLength then .bad (.tooLong n) else .length n := by
  have absent : ':' ∉ name.dropWhile Text.isBlank := fun mem =>
    colon_notMem_name names ((List.dropWhile_suffix _).subset mem)
  rw [Text.trimChars_append_cons isBlank_colon, headerLine, if_neg (by simp),
    Text.splitOnce_append_cons _ absent]
  simp only [Text.trimChars_dropWhile, Text.trimChars_rdropWhile]
  rw [if_pos names]
  rfl

theorem headerLine_of_other {text : List Char} (visible : ¬ ∀ c ∈ text, Text.isBlank c = true)
    (other : ∀ name value, text = name ++ ':' :: value →
      (Text.trimChars name).map Text.lowerAscii ≠ lengthHeader) :
    headerLine (Text.trimChars text) = .other := by
  have shows : (Text.trimChars text).isEmpty ≠ true := by
    rw [ne_eq, List.isEmpty_iff, Text.trimChars_eq_nil_iff]
    exact visible
  rw [headerLine, if_neg shows]
  by_cases mem : ':' ∈ text
  · -- the reader cuts at the first colon, so that is where `other` is asked
    obtain ⟨name, value, rfl, first⟩ := List.eq_append_cons_of_mem mem
    have absent : ':' ∉ name.dropWhile Text.isBlank := fun mem =>
      first ((List.dropWhile_suffix _).subset mem)
    rw [Text.trimChars_append_cons isBlank_colon, Text.splitOnce_append_cons _ absent]
    simp only [Text.trimChars_dropWhile]
    rw [if_neg (other name value rfl)]
  · have absent : ':' ∉ Text.trimChars text := by
      obtain ⟨a, b, whole⟩ := Text.eq_append_trimChars text
      intro trimmed
      exact mem (whole ▸ List.mem_append_left b (List.mem_append_right a trimmed))
    rw [Text.splitOnce_eq_none absent]

namespace Line

theorem IsBlank.seen {l : Line} (blank : l.IsBlank) :
    headerLine (Text.trimChars l.text) = .blank :=
  headerLine_of_blank blank

theorem IsOther.seen {l : Line} (other : l.IsOther) :
    headerLine (Text.trimChars l.text) = .other :=
  headerLine_of_other other.1 fun name value whole named => other.2 value ⟨name, whole, named⟩

theorem Tells.seen {l : Line} {n : Nat} (tells : l.Tells n)
    (fits : n ≤ maxContentLength) : headerLine (Text.trimChars l.text) = .length n := by
  obtain ⟨value, ⟨name, whole, named⟩, number⟩ := tells
  rw [whole, headerLine_of_names named, number]
  simp only
  rw [if_neg (by omega)]

theorem IsUnusable.seen {l : Line} (unusable : l.IsUnusable) :
    ∃ e, headerLine (Text.trimChars l.text) = .bad e ∧ e.isMalformed = true := by
  obtain ⟨value, ⟨name, whole, named⟩, large⟩ := unusable
  rw [whole, headerLine_of_names named]
  cases number : number? value with
  | none => exact ⟨.badLength, rfl, rfl⟩
  | some n =>
    simp only
    rw [if_pos (large n number)]
    exact ⟨.tooLong n, rfl, rfl⟩

/-- The line feed at its end does not show in what the reader sees of a line. -/
theorem trimChars_fed (l : Line) :
    Text.trimChars (Utf8.decodeLossy l.fed) = Text.trimChars l.text := by
  have fed : Utf8.decodeLossy l.fed = l.text ++ ['\n'] :=
    Utf8.decodeLossy_append_ascii (by decide) l.octets []
  rw [fed]
  exact Text.trimChars_append_blank l.text (List.all_eq_true.mp (by decide))

/-- A header of another name, as its first colon tells. -/
theorem isOther_of_text {l : Line} {name value : List Char} (text : l.text = name ++ ':' :: value)
    (first : ':' ∉ name) (other : (Text.trimChars name).map Text.lowerAscii ≠ lengthHeader) :
    l.IsOther := by
  constructor
  · intro blank
    have colon : ':' ∈ l.text := text ▸ List.mem_append_right _ List.mem_cons_self
    exact absurd (blank ':' colon) (by simp [isBlank_colon])
  · rintro value' ⟨name', text', named⟩
    have cut := Text.splitOnce_append_cons value first
    rw [← text, text', Text.splitOnce_append_cons value' (colon_notMem_name named)] at cut
    obtain ⟨rfl, -⟩ : name' = name ∧ value' = value := by simpa using cut
    exact other named

/-- The name of the header, in any case and with blanks around it, a colon, and a number with blanks
    around it: a line written so tells the number. -/
theorem tells_of_octets {l : Line} {before name after front numeral back : List Char} {n : Nat}
    (octets : l.octets
      = Utf8.encode (before ++ name ++ after ++ ':' :: (front ++ numeral ++ back)))
    (outside : ∀ c ∈ before ++ after, Text.isBlank c = true)
    (inside : ∀ c ∈ front ++ back, Text.isBlank c = true)
    (named : name.map Text.lowerAscii = lengthHeader)
    (solid : ∀ c ∈ numeral, Text.isBlank c = false)
    (value : Numeral.natural? Numeral.maxWord64 (String.ofList numeral) = some n) : l.Tells n := by
  simp only [List.forall_mem_append] at outside inside
  have text : l.text = before ++ name ++ after ++ ':' :: (front ++ numeral ++ back) := by
    rw [Line.text, octets, Utf8.decodeLossy_encode]
  refine ⟨front ++ numeral ++ back, ⟨before ++ name ++ after, text, ?_⟩, ?_⟩
  · rw [Text.trimChars_padded outside.1 outside.2 (isBlank_of_mem_name named), named]
  · rw [number?, Text.trimChars_padded inside.1 inside.2 solid, value]

end Line

/-! ## One line of the loop -/

theorem Line.fed_ne_nil (l : Line) : l.fed ≠ [] := by
  simp [Line.fed]

theorem Line.takeLine {s : OctetStream} {l : Line} {rest : List UInt8}
    (holds : s.Holds (l.fed ++ rest)) : ∃ s', s.takeLine = .got l.fed s' ∧ s'.Holds rest :=
  OctetStream.takeLine_append l.single (by simpa [Line.fed] using holds)

/-- A line that is looked through for a header and holds none is dropped, whether a line feed ends it
    or the stream does. -/
theorem readHeader_dropped {s s' : OctetStream} {octets : List UInt8} (filled : octets ≠ [])
    (taken : s.takeLine = .got octets s')
    (none : findLengthHeader (Text.trimChars (Utf8.decodeLossy octets)) = none) (fuel : Nat)
    (length : Option Nat) (begun : Bool) :
    readHeader (fuel + 1) ⟨s, true⟩ length begun = readHeader fuel ⟨s', true⟩ length begun := by
  rw [readHeader]
  simp [taken, none]

/-- What becomes of a line that is heard, by what it says. -/
theorem readHeader_heard {s s' : OctetStream} {l : Line} (taken : s.takeLine = .got l.fed s')
    {resync : Bool} {text : List Char}
    (heard : l.heard resync = some text)
    (fuel : Nat) (length : Option Nat) (begun : Bool) :
    readHeader (fuel + 1) ⟨s, resync⟩ length begun =
      match headerLine text with
      | .blank =>
        if begun then
          match length with
          | some n => .read n ⟨s', false⟩
          | none => .failed .noLength ⟨s', true⟩
        else readHeader fuel ⟨s', false⟩ length begun
      | .other => readHeader fuel ⟨s', false⟩ length true
      | .length n => readHeader fuel ⟨s', false⟩ (some n) true
      | .bad e => .failed e ⟨s', true⟩ := by
  -- nothing taken would stand for the end of the stream; a line has at least its line feed
  have filled := l.fed_ne_nil
  rw [Line.heard] at heard
  rw [readHeader]
  cases said : headerLine text with
  | blank =>
    cases length with
    | none => simp [taken, Line.trimChars_fed, heard, said]
    | some n => simp [taken, Line.trimChars_fed, heard, said]
  | length n => simp [taken, Line.trimChars_fed, heard, said]
  | other => simp [taken, Line.trimChars_fed, heard, said]
  | bad e => simp [taken, Line.trimChars_fed, heard, said]

/-! ## Through a header -/

/-- Where the reader stands in a header: whether it still looks for one, the length told so far,
    whether the header has begun, and the octets to come. -/
structure Standing where
  resync : Bool
  length : Option Nat
  begun : Bool
  octets : List UInt8

namespace Standing

/-- Reading on from `a` is reading on from `b`. -/
def Reaches (a b : Standing) : Prop :=
  ∀ (s : OctetStream) (fuel : Nat), s.Holds a.octets → a.octets.length < fuel →
    ∃ s' fuel', s'.Holds b.octets ∧ b.octets.length < fuel' ∧
      readHeader fuel ⟨s, a.resync⟩ a.length a.begun
        = readHeader fuel' ⟨s', b.resync⟩ b.length b.begun

theorem Reaches.refl (a : Standing) : Reaches a a :=
  fun s fuel holds enough => ⟨s, fuel, holds, enough, rfl⟩

theorem Reaches.trans {a b c : Standing} (ab : Reaches a b) (bc : Reaches b c) : Reaches a c := by
  intro s fuel holds enough
  obtain ⟨s', fuel', holds', enough', on⟩ := ab s fuel holds enough
  obtain ⟨s'', fuel'', holds'', enough'', onward⟩ := bc s' fuel' holds' enough'
  exact ⟨s'', fuel'', holds'', enough'', on.trans onward⟩

theorem reaches_of_line {a : Standing} {b : Standing} {l : Line}
    (octets : a.octets = l.fed ++ b.octets)
    (step : ∀ {s s' : OctetStream} (fuel : Nat), s.takeLine = .got l.fed s' →
      readHeader (fuel + 1) ⟨s, a.resync⟩ a.length a.begun
        = readHeader fuel ⟨s', b.resync⟩ b.length b.begun) : Reaches a b := by
  intro s fuel holds enough
  obtain ⟨s', taken, holds'⟩ := Line.takeLine (octets ▸ holds)
  cases fuel with
  | zero => omega
  | succ fuel =>
    -- the line took an octet at least, so a step less is still enough
    refine ⟨s', fuel, holds', ?_, step fuel taken⟩
    have : a.octets.length = l.octets.length + (1 + b.octets.length) := by
      simp [octets, Line.fed, Nat.add_comm 1]
    omega

/-- A line that is heard as saying `said`, when that does not end the header. -/
theorem reaches_heard {l : Line} {resync begun begun' : Bool} {length length' : Option Nat}
    {text : List Char} (rest : List UInt8)
    (heard : l.heard resync = some text)
    (said : headerLine text = .blank ∧ begun = false ∧ begun' = false ∧ length' = length ∨
      headerLine text = .other ∧ begun' = true ∧ length' = length ∨
      ∃ n, headerLine text = .length n ∧ begun' = true ∧ length' = some n) :
    Reaches ⟨resync, length, begun, l.fed ++ rest⟩ ⟨false, length', begun', rest⟩ := by
  apply reaches_of_line rfl
  intro s s' fuel taken
  rw [readHeader_heard taken heard]
  rcases said with ⟨seen, rfl, rfl, rfl⟩ | ⟨seen, rfl, rfl⟩ | ⟨n, seen, rfl, rfl⟩
  · simp [seen]
  · simp [seen]
  · simp [seen]

theorem reaches_blank {l : Line} (blank : l.IsBlank) (length : Option Nat) (rest : List UInt8) :
    Reaches ⟨false, length, false, l.fed ++ rest⟩ ⟨false, length, false, rest⟩ :=
  reaches_heard rest rfl (Or.inl ⟨blank.seen, rfl, rfl, rfl⟩)

theorem reaches_other {l : Line} (other : l.IsOther) (length : Option Nat) (begun : Bool)
    (rest : List UInt8) :
    Reaches ⟨false, length, begun, l.fed ++ rest⟩ ⟨false, length, true, rest⟩ :=
  reaches_heard rest rfl (Or.inr (Or.inl ⟨other.seen, rfl, rfl⟩))

theorem reaches_length {l : Line} {n : Nat} (tells : l.Tells n) (fits : n ≤ maxContentLength)
    (length : Option Nat) (begun : Bool) (rest : List UInt8) :
    Reaches ⟨false, length, begun, l.fed ++ rest⟩ ⟨false, some n, true, rest⟩ :=
  reaches_heard rest rfl (Or.inr (Or.inr ⟨n, tells.seen fits, rfl, rfl⟩))

theorem reaches_dropped {l : Line} (none : findLengthHeader (Text.trimChars l.text) = none)
    (length : Option Nat) (begun : Bool) (rest : List UInt8) :
    Reaches ⟨true, length, begun, l.fed ++ rest⟩ ⟨true, length, begun, rest⟩ := by
  apply reaches_of_line rfl
  intro s s' fuel taken
  rw [← Line.trimChars_fed] at none
  exact readHeader_dropped l.fed_ne_nil taken none fuel length begun

/-- What is left without a line feed is dropped too. -/
theorem reaches_droppedLast {last : List UInt8} (single : 0x0A ∉ last)
    (none : findLengthHeader (Text.trimChars (Utf8.decodeLossy last)) = none)
    (length : Option Nat) (begun : Bool) :
    Reaches ⟨true, length, begun, last⟩ ⟨true, length, begun, []⟩ := by
  by_cases filled : last = []
  · subst filled
    exact Reaches.refl _
  intro s fuel holds enough
  have taken := OctetStream.takeLine_last single holds
  cases fuel with
  | zero => omega
  | succ fuel =>
    have : last.length ≠ 0 := by simpa using filled
    refine ⟨⟨[], true⟩, fuel, OctetStream.holds_nil, ?_,
      readHeader_dropped filled taken none fuel length begun⟩
    have : last.length < fuel + 1 := enough
    simp only [List.length_nil]
    omega

theorem reaches_blanks {lines : List Line} (blank : ∀ l ∈ lines, l.IsBlank) (length : Option Nat)
    (rest : List UInt8) :
    Reaches ⟨false, length, false, lines.flatMap Line.fed ++ rest⟩
      ⟨false, length, false, rest⟩ := by
  induction lines with
  | nil => exact Reaches.refl _
  | cons l lines ih =>
    rw [List.forall_mem_cons] at blank
    rw [List.flatMap_cons, List.append_assoc]
    exact (reaches_blank blank.1 length _).trans (ih blank.2)

/-- Other headers change nothing but that the header has begun. -/
theorem reaches_others {lines : List Line} (other : ∀ l ∈ lines, l.IsOther) (length : Option Nat)
    (begun : Bool) (rest : List UInt8) :
    Reaches ⟨false, length, begun, lines.flatMap Line.fed ++ rest⟩
      ⟨false, length, begun || !lines.isEmpty, rest⟩ := by
  induction lines generalizing begun with
  | nil =>
    simp only [List.isEmpty_nil, Bool.not_true, Bool.or_false]
    exact Reaches.refl _
  | cons l lines ih =>
    rw [List.forall_mem_cons] at other
    rw [List.flatMap_cons, List.append_assoc]
    have on := (reaches_other other.1 length begun (lines.flatMap Line.fed ++ rest)).trans
      (ih other.2 true)
    simpa using on

/-! ## Where a header ends -/

/-- Reading on from `a` comes to an outcome, with the octets `rest` not read. -/
def Ends (a : Standing) (rest : List UInt8) (outcome : OctetStream → Outcome Nat) : Prop :=
  ∀ (s : OctetStream) (fuel : Nat), s.Holds a.octets → a.octets.length < fuel →
    ∃ s', s'.Holds rest ∧ readHeader fuel ⟨s, a.resync⟩ a.length a.begun = outcome s'

theorem Reaches.ends {a b : Standing} {rest : List UInt8} {outcome : OctetStream → Outcome Nat}
    (ab : Reaches a b) (ends : Ends b rest outcome) : Ends a rest outcome := by
  intro s fuel holds enough
  obtain ⟨s', fuel', holds', enough', on⟩ := ab s fuel holds enough
  obtain ⟨s'', holds'', reads⟩ := ends s' fuel' holds' enough'
  exact ⟨s'', holds'', on.trans reads⟩

theorem ends_of_line {l : Line} {resync : Bool} {length : Option Nat} {begun : Bool}
    (rest : List UInt8) {outcome : OctetStream → Outcome Nat}
    (step : ∀ (s s' : OctetStream) (fuel : Nat), s.takeLine = .got l.fed s' →
      readHeader (fuel + 1) ⟨s, resync⟩ length begun = outcome s') :
    Ends ⟨resync, length, begun, l.fed ++ rest⟩ rest outcome := by
  intro s fuel holds enough
  obtain ⟨s', taken, holds'⟩ := Line.takeLine holds
  cases fuel with
  | zero => omega
  | succ fuel => exact ⟨s', holds', step s s' fuel taken⟩

theorem ends_heard {l : Line} {resync : Bool} {text : List Char}
    (heard : l.heard resync = some text)
    {e : FrameError} (said : headerLine text = .bad e) (length : Option Nat) (begun : Bool)
    (rest : List UInt8) :
    Ends ⟨resync, length, begun, l.fed ++ rest⟩ rest fun s => .failed e ⟨s, true⟩ := by
  apply ends_of_line
  intro s s' fuel taken
  rw [readHeader_heard taken heard, said]

theorem ends_told {l : Line} (blank : l.IsBlank) (n : Nat) (rest : List UInt8) :
    Ends ⟨false, some n, true, l.fed ++ rest⟩ rest fun s => .read n ⟨s, false⟩ := by
  apply ends_of_line
  intro s s' fuel taken
  rw [readHeader_heard taken rfl, blank.seen]
  rfl

theorem ends_untold {l : Line} (blank : l.IsBlank) (rest : List UInt8) :
    Ends ⟨false, none, true, l.fed ++ rest⟩ rest fun s => .failed .noLength ⟨s, true⟩ := by
  apply ends_of_line
  intro s s' fuel taken
  rw [readHeader_heard taken rfl, blank.seen]
  rfl

theorem ends_unusable {l : Line} (unusable : l.IsUnusable) (length : Option Nat) (begun : Bool)
    (rest : List UInt8) :
    ∃ e : FrameError, e.isMalformed = true ∧
      Ends ⟨false, length, begun, l.fed ++ rest⟩ rest fun s => .failed e ⟨s, true⟩ := by
  obtain ⟨e, seen, malformed⟩ := unusable.seen
  exact ⟨e, malformed, ends_heard rfl seen length begun rest⟩

/-- Before a header has begun, the end of the stream is the end of the reading. -/
theorem ends_nothing (resync : Bool) (length : Option Nat) :
    Ends ⟨resync, length, false, []⟩ [] fun s => .ended ⟨s, resync⟩ := by
  intro s fuel holds enough
  cases fuel with
  | zero => simp at enough
  | succ fuel =>
    refine ⟨⟨[], true⟩, OctetStream.holds_nil, ?_⟩
    rw [readHeader, OctetStream.takeLine_last (by simp) holds]
    rfl

/-- A call of the reader is the reading of a header from its beginning, and of what it tells of. -/
theorem Ends.read {resync : Bool} {octets rest : List UInt8}
    {outcome : OctetStream → Outcome Nat} (ends : Ends ⟨resync, none, false, octets⟩ rest outcome)
    {s : OctetStream} (holds : s.Holds octets) :
    ∃ s', s'.Holds rest ∧ FrameReader.read ⟨s, resync⟩ =
      match outcome s' with
      | .starved => .starved
      | .ended r => .ended r
      | .failed e r => .failed e r
      | .read length r => readBody r length := by
  have enough : octets.length < s.size + 1 := by
    rw [holds.size]
    exact Nat.lt_succ_self _
  obtain ⟨s', holds', reads⟩ := ends s (s.size + 1) holds enough
  refine ⟨s', holds', ?_⟩
  unfold FrameReader.read
  simp only at reads
  cases told : outcome s' <;> simp only [reads, told]

end Standing

end LanguageClient.FrameReader
