import LanguageClient.Proofs.Wire.Frames
/-!
# Finding the next header

After a header that told no length the body cannot be skipped by counting.  The reader drops line
after line up to one that holds the name of the length header, and starts a header there.

`findLengthHeader` looks at text, but what the stream holds is octets: a line may be no UTF-8 at all,
and the header may come in the middle of it.  Octets that nowhere spell the name (`¬ Mentions`) read as
a text that nowhere spells it either, and since the first letter of the name does not come again in
it, no occurrence can begin in such octets and end in the header after them
(`findLengthHeader_append`).

What is written after such octets is read as if they had not been there.  That is not to say that
every message arrives: the writer writes what the reader refuses, a message nested too deeply or one
that is too long.
-/

namespace LanguageClient.FrameReader

/-! ## Occurrences of the name -/

/-- Somewhere in the octets stands the name of the length header, in whatever case. -/
def Mentions (octets : List UInt8) : Prop :=
  ∃ before name after, octets = before ++ Utf8.encode name ++ after ∧
    name.map Text.lowerAscii = lengthHeader

/-- The name stands nowhere in a text. -/
def Quiet (text : List Char) : Prop :=
  ∀ before name after, text = before ++ name ++ after → name.map Text.lowerAscii ≠ lengthHeader

theorem Quiet.of_cons {c : Char} {text : List Char} (quiet : Quiet (c :: text)) : Quiet text := by
  intro before name after whole
  exact quiet (c :: before) name after (by simp [whole])

theorem Quiet.of_part {text : List Char} (quiet : Quiet text) {before inner after : List Char}
    (whole : text = before ++ inner ++ after) : Quiet inner := by
  rintro a name b rfl
  exact quiet (before ++ a) name (b ++ after) (by simp [whole])

theorem Quiet.not_prefix {text : List Char} (quiet : Quiet text) (rest : List Char) :
    text.map Text.lowerAscii ≠ lengthHeader ++ rest := by
  intro whole
  obtain ⟨name, after, rfl, named, -⟩ := List.map_eq_append_iff.mp whole
  exact quiet [] name after rfl named

theorem ascii_of_named {name : List Char} (named : name.map Text.lowerAscii = lengthHeader)
    {c : Char} (mem : c ∈ name) : c.toNat < 0x80 := by
  have ascii : lengthHeader.all (·.toNat < 0x80) = true := by decide
  have lower : Text.lowerAscii c ∈ lengthHeader := named ▸ List.mem_map_of_mem mem
  exact Text.toNat_lt_of_lowerAscii (by simpa using List.all_eq_true.mp ascii _ lower)

/-- Octets that do not spell the name read as a text that does not. -/
theorem quiet_of_not_mentions {octets : List UInt8} (silent : ¬ Mentions octets) :
    Quiet (Utf8.decodeLossy octets) := by
  intro before name after whole named
  have sound : '\uFFFD' ∉ name := fun mem => absurd (ascii_of_named named mem) (by decide)
  obtain ⟨a, b, found⟩ := Utf8.stands_of_decodeLossy sound whole
  exact silent ⟨a, name, b, found, named⟩

theorem not_mentions_of_append {a b : List UInt8} (silent : ¬ Mentions (a ++ b)) :
    ¬ Mentions a ∧ ¬ Mentions b := by
  constructor
  · rintro ⟨before, name, after, rfl, named⟩
    exact silent ⟨before, name, after ++ b, by simp, named⟩
  · rintro ⟨before, name, after, rfl, named⟩
    exact silent ⟨a ++ before, name, after, by simp, named⟩

/-! ## Looking for the name -/

theorem findLengthHeader_cons (c : Char) (text : List Char) :
    findLengthHeader (c :: text) =
      if (Text.dropPrefix? lengthHeader ((c :: text).map Text.lowerAscii)).isSome then
        some (c :: text)
      else findLengthHeader text :=
  rfl

theorem findLengthHeader_of_quiet {text : List Char} (quiet : Quiet text) :
    findLengthHeader text = none := by
  induction text with
  | nil => rfl
  | cons c text ih =>
    have absent : ¬ (Text.dropPrefix? lengthHeader ((c :: text).map Text.lowerAscii)).isSome = true := by
      rw [Text.dropPrefix?_isSome_iff]
      rintro ⟨rest, whole⟩
      exact quiet.not_prefix rest whole
    rw [findLengthHeader_cons, if_neg absent, ih quiet.of_cons]

theorem first_letter_once : 'c' ∉ lengthHeader.tail := by
  decide

/-- An occurrence cannot begin in a text without one and go on into the name that follows it. -/
theorem not_prefix_of_append {c : Char} {before name after : List Char} (quiet : Quiet (c :: before))
    (named : name.map Text.lowerAscii = lengthHeader) (rest : List Char) :
    ((c :: before) ++ (name ++ after)).map Text.lowerAscii ≠ lengthHeader ++ rest := by
  intro whole
  rw [List.map_append] at whole
  rcases List.append_eq_append_iff.mp whole with ⟨more, split, tail⟩ | ⟨more, split, -⟩
  · cases more with
    | nil => exact quiet.not_prefix [] (by simpa using split.symm)
    | cons d more =>
      -- what is missing of the name would begin with its first letter
      have first : d = 'c' := by
        rw [List.map_append, named] at tail
        exact (List.cons.inj tail).1.symm
      apply first_letter_once
      rw [split, first]
      simp
  · exact quiet.not_prefix more split

/-- The name is found where it comes first. -/
theorem findLengthHeader_append {before name : List Char} (quiet : Quiet before)
    (named : name.map Text.lowerAscii = lengthHeader) (after : List Char) :
    findLengthHeader (before ++ (name ++ after)) = some (name ++ after) := by
  induction before with
  | nil =>
    cases name with
    | nil => exact absurd named (by decide)
    | cons c name =>
      have here : (Text.dropPrefix? lengthHeader
          ((c :: name ++ after).map Text.lowerAscii)).isSome = true := by
        rw [Text.dropPrefix?_isSome_iff, List.map_append, named]
        exact ⟨_, rfl⟩
      exact if_pos here
  | cons c before ih =>
    have absent : ¬ (Text.dropPrefix? lengthHeader
        ((c :: before ++ (name ++ after)).map Text.lowerAscii)).isSome = true := by
      rw [Text.dropPrefix?_isSome_iff]
      rintro ⟨rest, whole⟩
      exact not_prefix_of_append quiet named rest whole
    rw [List.cons_append, findLengthHeader_cons, ← List.cons_append, if_neg absent,
      ih quiet.of_cons]

theorem Quiet.dropWhile {text : List Char} (quiet : Quiet text) (p : Char → Bool) :
    Quiet (text.dropWhile p) := by
  obtain ⟨before, whole⟩ := List.dropWhile_suffix (l := text) p
  have part : text = before ++ text.dropWhile p ++ [] := by simp [whole]
  exact quiet.of_part part

/-- A header line is found where it is glued to a text without the name, trimmed as a line of its
    own would be. -/
theorem findLengthHeader_glued {before name : List Char} (quiet : Quiet before)
    (named : name.map Text.lowerAscii = lengthHeader) (value : List Char) :
    findLengthHeader (Text.trimChars (before ++ (name ++ ':' :: value)))
      = some (Text.trimChars (name ++ ':' :: value)) := by
  cases name with
  | nil => exact absurd named (by decide)
  | cons c name =>
    have visible := isBlank_of_mem_name named c List.mem_cons_self
    have alone : (c :: name).dropWhile Text.isBlank = c :: name :=
      List.dropWhile_cons_of_neg (by simp [visible])
    rw [← List.append_assoc, Text.trimChars_append_cons isBlank_colon,
      Text.dropWhile_append_cons visible, Text.trimChars_append_cons isBlank_colon, alone,
      List.append_assoc, findLengthHeader_append (quiet.dropWhile _) named]

/-! ## Through junk -/

/-- Octets are lines, and a rest that no line feed ends. -/
theorem exists_lines (octets : List UInt8) :
    ∃ (lines : List Line) (last : List UInt8), 0x0A ∉ last ∧
      octets = lines.flatMap Line.fed ++ last := by
  induction octets with
  | nil => exact ⟨[], [], by simp, rfl⟩
  | cons b octets ih =>
    obtain ⟨lines, last, single, rfl⟩ := ih
    by_cases fed : b = 0x0A
    · subst fed
      exact ⟨⟨[], by simp⟩ :: lines, last, single, rfl⟩
    cases lines with
    | nil => exact ⟨[], b :: last, by simp [Ne.symm fed, single], rfl⟩
    | cons l lines =>
      refine ⟨⟨b :: l.octets, ?_⟩ :: lines, last, single, rfl⟩
      rw [List.mem_cons, not_or]
      exact ⟨Ne.symm fed, l.single⟩

/-- The reader does not stop at a part of the octets that does not spell the name. -/
theorem findLengthHeader_of_silent {octets : List UInt8} (silent : ¬ Mentions octets) :
    findLengthHeader (Text.trimChars (Utf8.decodeLossy octets)) = none := by
  obtain ⟨a, b, whole⟩ := Text.eq_append_trimChars (Utf8.decodeLossy octets)
  exact findLengthHeader_of_quiet ((quiet_of_not_mentions silent).of_part whole)

theorem reaches_silentLines {lines : List Line} (silent : ¬ Mentions (lines.flatMap Line.fed))
    (rest : List UInt8) :
    Standing.Reaches ⟨true, none, false, lines.flatMap Line.fed ++ rest⟩
      ⟨true, none, false, rest⟩ := by
  induction lines with
  | nil => exact Standing.Reaches.refl _
  | cons l lines ih =>
    rw [List.flatMap_cons] at silent
    have parts := not_mentions_of_append silent
    rw [List.flatMap_cons, List.append_assoc]
    have none := findLengthHeader_of_silent (not_mentions_of_append parts.1).1
    exact (Standing.reaches_dropped none Option.none false _).trans (ih parts.2)

/-- The header line of a frame is heard at the end of octets that do not spell the name, and what is
    glued to it is not. -/
theorem exists_glued {last : List UInt8} (single : 0x0A ∉ last) (silent : ¬ Mentions last)
    (n : Nat) :
    ∃ glued : Line, glued.fed = last ++ (Line.written n).fed ∧
      glued.heard true = some (Text.trimChars (Line.written n).text) := by
  refine ⟨{ octets := last ++ (Line.written n).octets, single := ?_ }, ?_, ?_⟩
  · rw [List.mem_append, not_or]
    exact ⟨single, (Line.written n).single⟩
  · simp [Line.fed]
  · have text : Utf8.decodeLossy (last ++ (Line.written n).octets)
        = Utf8.decodeLossy last ++ (Line.written n).text := by
      rw [Line.text_written]
      exact Utf8.decodeLossy_append_encode (c := 'C') (by decide) last _
    rw [Line.heard, if_pos rfl, Line.text, text, Line.text_written]
    exact findLengthHeader_glued (quiet_of_not_mentions silent) (by decide) _

/-- The header of a written frame is read wherever it comes in or after octets that do not spell the
    name. -/
theorem ends_afterJunk {junk : List UInt8} (silent : ¬ Mentions junk) {n : Nat}
    (fits : n ≤ maxContentLength) (rest : List UInt8) :
    Standing.Ends
      ⟨true, none, false, junk ++ ((Line.written n).fed ++ (Line.carriageReturn.fed ++ rest))⟩ rest
      fun s => .read n ⟨s, false⟩ := by
  obtain ⟨lines, last, single, rfl⟩ := exists_lines junk
  have parts := not_mentions_of_append silent
  obtain ⟨glued, octets, heard⟩ := exists_glued single parts.2 n
  have said := (Line.tells_written fits).seen fits
  rw [List.append_assoc, ← List.append_assoc last, ← octets]
  apply (reaches_silentLines parts.1 _).ends
  apply (Standing.reaches_heard _ heard (Or.inr (Or.inr ⟨n, said, rfl, rfl⟩))).ends
  exact Standing.ends_told Line.isBlank_carriageReturn n rest

/-- Octets that do not spell the name are passed over to the end of the stream. -/
theorem ends_inJunk {junk : List UInt8} (silent : ¬ Mentions junk) :
    Standing.Ends ⟨true, none, false, junk⟩ [] fun s => .ended ⟨s, true⟩ := by
  obtain ⟨lines, last, single, rfl⟩ := exists_lines junk
  have parts := not_mentions_of_append silent
  apply (reaches_silentLines parts.1 _).ends
  apply (Standing.reaches_droppedLast single (findLengthHeader_of_silent parts.2) _ _).ends
  exact Standing.ends_nothing true none

/-- What was written after junk is read as if the junk had not been there. -/
theorem readAll_afterJunk {junk : List UInt8} (silent : ¬ Mentions junk) {messages : List Message}
    (fit : ∀ m ∈ messages, Utf8.size m.text ≤ maxContentLength) {s : OctetStream}
    (holds : s.Holds (junk ++ messages.flatMap fun m => Utf8.encodeString m.frame)) {calls : Nat}
    (enough : messages.length < calls) :
    readAll calls ⟨s, true⟩
      = (messages.map fun m => (Message.parse m.text).mapError .notMessage, true) := by
  obtain ⟨calls, rfl⟩ : ∃ c, calls = c + 1 := ⟨calls - 1, by omega⟩
  cases messages with
  | nil =>
    rw [List.flatMap_nil, List.append_nil] at holds
    obtain ⟨s', -, reads⟩ := (ends_inJunk silent).read holds
    rw [readAll, reads]
    rfl
  | cons m messages =>
    rw [List.forall_mem_cons, Utf8.size_eq_length] at fit
    rw [List.flatMap_cons, Message.frame, encodeString_framed, Utf8.size_eq_length,
      List.append_assoc, List.append_assoc] at holds
    obtain ⟨s', holds', reads⟩ := (ends_afterJunk silent fit.1 _).read holds
    obtain ⟨s'', result, holds'', body, bodyReads⟩ := readBody_append holds' false
    have rest := readAll_messages fit.2 holds'' (Nat.lt_of_succ_lt_succ enough)
    rw [readAll_ofResult calls (reads.trans bodyReads), rest, body.eq_of_text, List.map_cons]

/-! ## Refused headers -/

/-- A header that is refused: it ends without having told a length, or it tells one that cannot be
    used. -/
inductive Refused : List UInt8 → Prop
  | untold {others : List Line} {last : Line} (filled : others ≠ [])
      (other : ∀ l ∈ others, l.IsOther) (blank : last.IsBlank) :
      Refused (others.flatMap Line.fed ++ last.fed)
  | unusable {others : List Line} {l : Line} (other : ∀ l ∈ others, l.IsOther)
      (unusable : l.IsUnusable) : Refused (others.flatMap Line.fed ++ l.fed)

theorem Refused.ends {header : List UInt8} (refused : Refused header) (rest : List UInt8) :
    ∃ e : FrameError, e.isMalformed = true ∧
      Standing.Ends ⟨false, none, false, header ++ rest⟩ rest fun s => .failed e ⟨s, true⟩ := by
  cases refused with
  | untold filled other blank =>
    refine ⟨.noLength, rfl, ?_⟩
    rw [List.append_assoc]
    have begun := Standing.reaches_others other none false
    simp only [Bool.false_or, List.isEmpty_eq_false_iff.mpr filled, Bool.not_false] at begun
    exact (begun _).ends (Standing.ends_untold blank rest)
  | unusable other unusable =>
    obtain ⟨e, malformed, ends⟩ := Standing.ends_unusable unusable none _ rest
    refine ⟨e, malformed, ?_⟩
    rw [List.append_assoc]
    exact (Standing.reaches_others other none false _).ends ends

/-! ## After a refused header -/

/-- **Reading resumes after a refused header.**  Whatever octets come between the refused header and
    the first frame, even in the middle of a line, as long as they do not spell the name of the
    length header: the reader gives one error for the header, then one result for each message
    written, in order, which is what reading its text gives, and then the stream is at its end. -/
theorem reading_resumes {header junk : List UInt8} (refused : Refused header)
    (silent : ¬ Mentions junk) {messages : List Message}
    (fit : ∀ m ∈ messages, Utf8.size m.text ≤ maxContentLength) {chunks : List (List UInt8)}
    (filled : [] ∉ chunks)
    (whole : chunks.flatten
      = header ++ (junk ++ messages.flatMap fun m => Utf8.encodeString m.frame))
    {calls : Nat} (enough : messages.length + 1 < calls) :
    ∃ e : FrameError, e.isMalformed = true ∧
      readAll calls { stream := .ofChunks chunks }
        = (.error e :: messages.map fun m => (Message.parse m.text).mapError .notMessage, true) := by
  have holds := OctetStream.holds_ofChunks filled
  rw [whole] at holds
  obtain ⟨calls, rfl⟩ : ∃ c, calls = c + 1 := ⟨calls - 1, by omega⟩
  obtain ⟨e, malformed, ends⟩ := refused.ends (junk ++ messages.flatMap _)
  obtain ⟨s', holds', reads⟩ := ends.read holds
  have first : FrameReader.read ⟨.ofChunks chunks, false⟩
      = .ofResult (.error e) ⟨s', true⟩ := reads
  refine ⟨e, malformed, ?_⟩
  rw [readAll_ofResult calls first,
    readAll_afterJunk silent fit holds' (Nat.lt_of_succ_lt_succ enough)]

theorem length_le_of_mentions {octets : List UInt8} (mentions : Mentions octets) :
    lengthHeader.length ≤ octets.length := by
  obtain ⟨before, name, after, rfl, named⟩ := mentions
  have := Utf8.length_le_length_encode name
  rw [← named, List.length_map]
  simp only [List.length_append]
  omega

theorem refused_contentType : Refused (Line.contentType.fed ++ Line.carriageReturn.fed) := by
  have refused := Refused.untold (List.cons_ne_nil Line.contentType [])
    (by simpa using Line.isOther_contentType) Line.isBlank_carriageReturn
  simpa using refused

/-- A body that was not counted is glued to the header of the next frame, and comes octet by
    octet. -/
theorem reading_resumes_gluedBody :
    let header := Line.contentType.fed ++ Line.carriageReturn.fed
    let junk : List UInt8 := [0x7B, 0x0A, 0xFF]
    let exit : Message := .notification { method := "exit" }
    let octets := header ++ (junk ++ [exit].flatMap fun m => Utf8.encodeString m.frame)
    Refused header ∧ ¬ Mentions junk ∧ (∀ m ∈ [exit], Utf8.size m.text ≤ maxContentLength) ∧
      [] ∉ octets.map (fun b => [b]) ∧ (octets.map fun b => [b]).flatten = octets ∧
      ∃ e : FrameError, e.isMalformed = true ∧
        readAll 3 { stream := .ofChunks (octets.map fun b => [b]) }
          = ([.error e, (Message.parse exit.text).mapError .notMessage], true) := by
  intro header junk exit octets
  have silent : ¬ Mentions junk := fun mentions =>
    absurd (length_le_of_mentions mentions) (by decide)
  have fit : ∀ m ∈ [exit], Utf8.size m.text ≤ maxContentLength := by
    simp only [List.mem_singleton, forall_eq]
    decide
  have filled := OctetStream.singles_filled octets
  have whole := OctetStream.flatten_singles octets
  refine ⟨refused_contentType, silent, fit, filled, whole, ?_⟩
  exact reading_resumes refused_contentType silent fit filled whole (by decide)

/-! ## Messages that are written and not read -/

theorem parse_text (m : Message) :
    Message.parse m.text = Message.parseChars (Json.write [] (.obj m.members)) := by
  rw [Message.parse, Message.text, Json.render, String.toList_ofList]

theorem size_text (m : Message) :
    Utf8.size m.text = (Utf8.encode (Json.write [] (.obj m.members))).length := by
  rw [Utf8.size_eq_length, Utf8.encodeString, Message.text, Json.render, String.toList_ofList]

/-- Lists in lists, the innermost empty. -/
def nested : Nat → Json
  | 0 => .arr []
  | n + 1 => .arr [nested n]

/-- A message with parameters nested more deeply than is read. -/
def deepMessage : Message :=
  .notification { method := "m", params := some (nested Json.maxDepth) }

theorem parse_deepMessage : Message.parse deepMessage.text = .error .notJson := by
  rw [parse_text]
  decide +kernel

theorem size_deepMessage : Utf8.size deepMessage.text ≤ maxContentLength := by
  rw [size_text]
  decide +kernel

/-- A message with a method of `n` letters. -/
def longMessage (n : Nat) : Message :=
  .notification { method := String.ofList (List.replicate n 'a') }

theorem quoted_letters (n : Nat) :
    Json.quoted (String.ofList (List.replicate n 'a')) = '"' :: List.replicate n 'a' ++ ['"'] := by
  have plain : (List.replicate n 'a').flatMap Json.escapeChar = List.replicate n 'a' := by
    induction n with
    | zero => rfl
    | succ n ih =>
      rw [List.replicate_succ, List.flatMap_cons, ih]
      rfl
  rw [Json.quoted, String.toList_ofList, plain]

theorem write_longMessage (n : Nat) :
    Json.write [] (.obj (longMessage n).members)
      = "\x7b\"jsonrpc\":\"2.0\",\"method\":\"".toList ++ List.replicate n 'a'
        ++ "\"\x7d".toList := by
  have jsonrpc : Json.quoted "jsonrpc" = "\"jsonrpc\"".toList := by decide
  have version : Json.quoted "2.0" = "\"2.0\"".toList := by decide
  have method : Json.quoted "method" = "\"method\"".toList := by decide
  simp [longMessage, Message.members, Notification.members, Json.write, Json.writeMembers,
    Json.present, toJson, Payload.toJson, jsonrpc, version, method, quoted_letters]

theorem lt_size_longMessage (n : Nat) : n < Utf8.size (longMessage n).text := by
  have length := Utf8.length_le_length_encode (Json.write [] (.obj (longMessage n).members))
  rw [← size_text, write_longMessage] at length
  simp only [List.length_append, List.length_replicate] at length
  have : 0 < "\"\x7d".toList.length := by decide
  omega

/-- A frame that is too long is refused where its header is looked for. -/
theorem read_tooLong {m : Message} (long : maxContentLength < Utf8.size m.text) {s : OctetStream}
    (holds : s.Holds (Utf8.encodeString m.frame)) :
    ∃ (e : FrameError) (r : FrameReader), FrameReader.read ⟨s, true⟩ = .failed e r := by
  have silent : ¬ Mentions [] := fun mentions => absurd (length_le_of_mentions mentions) (by decide)
  obtain ⟨line, octets, heard⟩ := exists_glued (by simp) silent (Utf8.size m.text)
  obtain ⟨e, said, -⟩ := (Line.isUnusable_written long).seen
  rw [Message.frame, encodeString_framed] at holds
  rw [List.nil_append] at octets
  rw [← octets] at holds
  obtain ⟨s', -, reads⟩ := (Standing.ends_heard heard said none false _).read holds
  exact ⟨e, _, reads⟩

theorem encodeString_frame_ne_nil (m : Message) : Utf8.encodeString m.frame ≠ [] := by
  rw [Message.frame, encodeString_framed]
  simp [Line.fed]

/-- A header without a length is refused, and the frame after it is still to come. -/
theorem read_afterContentType (m : Message) :
    ∃ s', s'.Holds (Utf8.encodeString m.frame) ∧
      FrameReader.read { stream := .ofChunks [Line.contentType.fed ++ Line.carriageReturn.fed,
        Utf8.encodeString m.frame] } = .ofResult (.error .noLength) ⟨s', true⟩ := by
  have filled : [] ∉ [Line.contentType.fed ++ Line.carriageReturn.fed,
      Utf8.encodeString m.frame] := by
    simp [Line.fed, encodeString_frame_ne_nil m]
  have holds := OctetStream.holds_ofChunks filled
  have whole : [Line.contentType.fed ++ Line.carriageReturn.fed, Utf8.encodeString m.frame].flatten
      = Line.contentType.fed ++ (Line.carriageReturn.fed ++ Utf8.encodeString m.frame) := by
    simp
  rw [whole] at holds
  have other := Standing.reaches_other Line.isOther_contentType none false
  exact ((other _).ends (Standing.ends_untold Line.isBlank_carriageReturn _)).read holds

/-- Not every message that is written is read, also after a header that was refused: one that is
    nested too deeply and one that is too long each give a second error in place of the message. -/
theorem refusal_may_be_followed_by_another :
    let header := Line.contentType.fed ++ Line.carriageReturn.fed
    let long := longMessage maxContentLength
    Refused header ∧ ¬ Mentions [] ∧
      readAll 3 { stream := .ofChunks [header, Utf8.encodeString deepMessage.frame] }
        = ([.error .noLength, .error (.notMessage .notJson)], true) ∧
      ∃ e rest ended,
        readAll 3 { stream := .ofChunks [header, Utf8.encodeString long.frame] }
          = (.error .noLength :: .error e :: rest, ended) := by
  intro header long
  have silent : ¬ Mentions [] := fun mentions => absurd (length_le_of_mentions mentions) (by decide)
  refine ⟨refused_contentType, silent, ?_, ?_⟩
  · obtain ⟨s', holds', reads⟩ := read_afterContentType deepMessage
    have only : s'.Holds ([] ++ [deepMessage].flatMap fun m => Utf8.encodeString m.frame) := by
      rw [List.nil_append, List.flatMap_singleton]
      exact holds'
    have fit : ∀ m ∈ [deepMessage], Utf8.size m.text ≤ maxContentLength := by
      simpa using size_deepMessage
    rw [readAll_ofResult 2 reads, readAll_afterJunk silent fit only (by decide), List.map_cons,
      parse_deepMessage]
    rfl
  · obtain ⟨s', holds', reads⟩ := read_afterContentType long
    obtain ⟨e, r, fails⟩ := read_tooLong (lt_size_longMessage maxContentLength) holds'
    have fails : FrameReader.read ⟨s', true⟩ = .ofResult (.error e) r := fails
    rw [readAll_ofResult 2 reads, readAll_ofResult 1 fails]
    exact ⟨e, _, _, rfl⟩

end LanguageClient.FrameReader
