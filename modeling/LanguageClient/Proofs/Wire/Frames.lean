import LanguageClient.Proofs.Text.Numeral
import LanguageClient.Proofs.Wire.Header
import Mathlib.Data.List.Forall2
/-!
# One frame after another

A frame is a header block and a body.  `HeaderBlock n` is any block that tells the length `n` once,
among whatever other headers and after whatever blank lines; `Frame` puts a body of that length after
it.  A call of the reader takes such a frame whole, and what it gives depends on the body alone
(`Frame.read`), so that a list of frames is read frame by frame (`readAll_frames`).

The frames that are written for messages are such frames (`Frame.octets_written`).
-/

namespace LanguageClient.FrameReader

/-! ## Bodies -/

/-- What a body gives, read as a message. -/
inductive BodyRead (body : List UInt8) : Except FrameError Message → Prop
  | message {s : String} {m : Message} (text : body = Utf8.encodeString s)
      (parsed : Message.parse s = .ok m) : BodyRead body (.ok m)
  | notMessage {s : String} {e : MessageError} (text : body = Utf8.encodeString s)
      (refused : Message.parse s = .error e) : BodyRead body (.error (.notMessage e))
  | notText (broken : ∀ s, body ≠ Utf8.encodeString s) : BodyRead body (.error .notText)

/-- A body that gives no message gives an error after which the reading goes on. -/
theorem BodyRead.isMalformed {body : List UInt8} {e : FrameError}
    (read : BodyRead body (.error e)) : e.isMalformed = true := by
  cases read <;> rfl

/-- No body among several gives an error that would stop the reading. -/
theorem isMalformed_of_bodies {bodies : List (List UInt8)}
    {results : List (Except FrameError Message)} (read : List.Forall₂ BodyRead bodies results)
    {e : FrameError} (mem : .error e ∈ results) : e.isMalformed = true := by
  induction read with
  | nil => contradiction
  | cons body _ ih =>
    rcases List.mem_cons.mp mem with rfl | mem
    · exact body.isMalformed
    · exact ih mem

theorem encodeString_inj {s t : String} (same : Utf8.encodeString s = Utf8.encodeString t) :
    s = t := by
  have read : Utf8.decode? (Utf8.encodeString s) = some t.toList :=
    Utf8.decode?_eq_some_iff.mpr same
  rw [Utf8.encodeString, Utf8.decode?_eq_some_iff.mpr rfl, Option.some.injEq] at read
  rw [← String.ofList_toList (s := s), read, String.ofList_toList]

theorem BodyRead.eq_of_text {s : String} {result : Except FrameError Message}
    (read : BodyRead (Utf8.encodeString s) result) :
    result = (Message.parse s).mapError .notMessage := by
  cases read with
  | message text parsed =>
    rw [encodeString_inj text, parsed]
    rfl
  | notMessage text refused =>
    rw [encodeString_inj text, refused]
    rfl
  | notText broken => exact absurd rfl (broken s)

/-- What a call of the reader comes to when it gives a result. -/
def Outcome.ofResult (result : Except FrameError Message) (r : FrameReader) : Outcome Message :=
  match result with
  | .ok m => .read m r
  | .error e => .failed e r

theorem readBody_append {s : OctetStream} {body rest : List UInt8} (holds : s.Holds (body ++ rest))
    (resync : Bool) :
    ∃ s' result, s'.Holds rest ∧ BodyRead body result ∧
      readBody ⟨s, resync⟩ body.length = .ofResult result ⟨s', resync⟩ := by
  obtain ⟨s', taken, holds'⟩ := OctetStream.takeExact_append holds
  cases text : Utf8.decode? body with
  | none =>
    refine ⟨s', .error .notText, holds', .notText ?_, ?_⟩
    · rintro s rfl
      rw [Utf8.encodeString, Utf8.decode?_eq_some_iff.mpr rfl] at text
      contradiction
    · simp [readBody, taken, text, Outcome.ofResult]
  | some cs =>
    have whole : body = Utf8.encodeString (String.ofList cs) := by
      rw [Utf8.encodeString, String.toList_ofList]
      exact Utf8.decode?_eq_some_iff.mp text
    have same : Message.parse (String.ofList cs) = Message.parseChars cs := by
      rw [Message.parse, String.toList_ofList]
    cases parsed : Message.parseChars cs with
    | error e =>
      exact ⟨s', .error (.notMessage e), holds', .notMessage whole (same.trans parsed),
        by simp [readBody, taken, text, parsed, Outcome.ofResult]⟩
    | ok m =>
      exact ⟨s', .ok m, holds', .message whole (same.trans parsed),
        by simp [readBody, taken, text, parsed, Outcome.ofResult]⟩

/-! ## Header blocks -/

/-- A header that tells the length `n` once.  Blank lines may come before it, other headers before
    and after the one that tells the length, and a blank line ends it. -/
structure HeaderBlock (n : Nat) where
  blanks : List Line
  before : List Line
  length : Line
  after : List Line
  last : Line
  blanks_blank : ∀ l ∈ blanks, l.IsBlank
  before_other : ∀ l ∈ before, l.IsOther
  length_tells : length.Tells n
  after_other : ∀ l ∈ after, l.IsOther
  last_blank : last.IsBlank

namespace HeaderBlock

variable {n : Nat}

def octets (h : HeaderBlock n) : List UInt8 :=
  h.blanks.flatMap Line.fed ++ (h.before.flatMap Line.fed ++ (h.length.fed ++
    (h.after.flatMap Line.fed ++ h.last.fed)))

/-- The reader goes through the block from end to end and knows the length. -/
theorem ends (h : HeaderBlock n) (fits : n ≤ maxContentLength) (rest : List UInt8) :
    Standing.Ends ⟨false, none, false, h.octets ++ rest⟩ rest fun s => .read n ⟨s, false⟩ := by
  have parts : h.octets ++ rest = h.blanks.flatMap Line.fed ++ (h.before.flatMap Line.fed ++
      (h.length.fed ++ (h.after.flatMap Line.fed ++ (h.last.fed ++ rest)))) := by
    simp [octets]
  rw [parts]
  apply (Standing.reaches_blanks h.blanks_blank _ _).ends
  apply (Standing.reaches_others h.before_other _ _ _).ends
  apply (Standing.reaches_length h.length_tells fits _ _ _).ends
  apply (Standing.reaches_others h.after_other _ _ _).ends
  exact Standing.ends_told h.last_blank n rest

end HeaderBlock

/-! ## Frames -/

/-- A body, after a header that tells its length, which is not more than what is taken. -/
structure Frame where
  body : List UInt8
  header : HeaderBlock body.length
  fits : body.length ≤ maxContentLength

namespace Frame

def octets (f : Frame) : List UInt8 :=
  f.header.octets ++ f.body

/-- A call of the reader takes the frame, and nothing more, whatever the body is. -/
theorem read (f : Frame) {s : OctetStream} {rest : List UInt8} (holds : s.Holds (f.octets ++ rest)) :
    ∃ s' result, s'.Holds rest ∧ BodyRead f.body result ∧
      FrameReader.read ⟨s, false⟩ = .ofResult result ⟨s', false⟩ := by
  rw [octets, List.append_assoc] at holds
  obtain ⟨s', holds', reads⟩ := (f.header.ends f.fits (f.body ++ rest)).read holds
  obtain ⟨s'', result, holds'', body, bodyReads⟩ := readBody_append holds' false
  exact ⟨s'', result, holds'', body, reads.trans bodyReads⟩

end Frame

/-! ## Frames that are written -/

/-- The line that a frame is written with, for a body of `n` octets. -/
def Line.written (n : Nat) : Line where
  octets := Utf8.encode ("Content-Length: ".toList ++ (toString n).toList ++ ['\r'])
  single := by
    intro mem
    have digit : '\n' ∈ (toString n).toList := by
      simpa using Utf8.lineFeed_mem_of_encode mem
    exact absurd (Numeral.isDigit_of_mem_toString digit) (by decide)

theorem Line.text_written (n : Nat) :
    (Line.written n).text = "Content-Length".toList ++ ':' :: (' ' :: (toString n).toList ++ ['\r']) :=
  Utf8.decodeLossy_encode _

theorem Line.number?_written (n : Nat) :
    number? (' ' :: (toString n).toList ++ ['\r'])
      = if n ≤ Numeral.maxWord64 then some n else none := by
  have trimmed : Text.trimChars ([' '] ++ (toString n).toList ++ ['\r']) = (toString n).toList :=
    Text.trimChars_padded (List.all_eq_true.mp (by decide)) (List.all_eq_true.mp (by decide))
      fun c mem => Numeral.isBlank_of_isDigit (Numeral.isDigit_of_mem_toString mem)
  have same : ' ' :: (toString n).toList ++ ['\r'] = [' '] ++ (toString n).toList ++ ['\r'] := rfl
  rw [number?, same, trimmed, String.ofList_toList, Numeral.natural?_toString]

theorem Line.names_written (n : Nat) :
    (Line.written n).Names (' ' :: (toString n).toList ++ ['\r']) :=
  ⟨"Content-Length".toList, text_written n, by decide⟩

theorem Line.tells_written {n : Nat} (fits : n ≤ maxContentLength) : (Line.written n).Tells n := by
  have small : n ≤ Numeral.maxWord64 := Nat.le_trans fits (by decide)
  exact ⟨_, names_written n, by rw [number?_written, if_pos small]⟩

theorem Line.isUnusable_written {n : Nat} (long : maxContentLength < n) :
    (Line.written n).IsUnusable := by
  refine ⟨_, names_written n, ?_⟩
  intro k told
  rw [number?_written] at told
  split at told
  case isTrue => exact Option.some.inj told ▸ long
  case isFalse => contradiction

/-- A carriage return alone. -/
def Line.carriageReturn : Line where
  octets := [0x0D]
  single := by decide

theorem Line.isBlank_carriageReturn : Line.carriageReturn.IsBlank := by
  have blank : Line.carriageReturn.text.all Text.isBlank = true := by decide
  exact List.all_eq_true.mp blank

/-- The header that is written for a body of `n` octets. -/
def HeaderBlock.written (n : Nat) (fits : n ≤ maxContentLength) : HeaderBlock n where
  blanks := []
  before := []
  length := .written n
  after := []
  last := .carriageReturn
  blanks_blank := by simp
  before_other := by simp
  length_tells := Line.tells_written fits
  after_other := by simp
  last_blank := Line.isBlank_carriageReturn

/-- The frame that is written for a body. -/
def Frame.written (body : String) (fits : (Utf8.encodeString body).length ≤ maxContentLength) :
    Frame where
  body := Utf8.encodeString body
  header := .written _ fits
  fits := fits

/-- What is written for a body of whatever size: two lines and the body. -/
theorem encodeString_framed (body : String) :
    Utf8.encodeString (framed body) = (Line.written (Utf8.size body)).fed
      ++ (Line.carriageReturn.fed ++ Utf8.encodeString body) := by
  have feeds : Utf8.encodeString "\r\n\r\n" = Utf8.encode ['\r'] ++ [0x0A] ++ [0x0D, 0x0A] := by
    decide
  unfold framed
  rw [Utf8.encodeString_append, Utf8.encodeString_append, Utf8.encodeString_append, feeds]
  simp only [Line.fed, Line.written, Line.carriageReturn, Utf8.encode_append, Utf8.encodeString,
    List.nil_append, List.append_assoc, List.cons_append]

theorem Frame.octets_written (body : String)
    (fits : (Utf8.encodeString body).length ≤ maxContentLength) :
    (Frame.written body fits).octets = Utf8.encodeString (framed body) := by
  rw [encodeString_framed, Utf8.size_eq_length]
  simp [Frame.octets, Frame.written, HeaderBlock.octets, HeaderBlock.written]

theorem readAll_ofResult {r r' : FrameReader} {result : Except FrameError Message} (fuel : Nat)
    (reads : r.read = .ofResult result r') :
    readAll (fuel + 1) r = (result :: (readAll fuel r').1, (readAll fuel r').2) := by
  rw [readAll, reads]
  cases result <;> rfl

theorem read_nothing {s : OctetStream} (holds : s.Holds []) (resync : Bool) :
    ∃ s', FrameReader.read ⟨s, resync⟩ = .ended ⟨s', resync⟩ := by
  obtain ⟨s', -, reads⟩ := (Standing.ends_nothing resync none).read holds
  exact ⟨s', reads⟩

/-- Frames are read one by one, each to what its own body gives, and then the stream is at its
    end. -/
theorem readAll_frames {frames : List Frame} {s : OctetStream}
    (holds : s.Holds (frames.flatMap Frame.octets)) {calls : Nat} (enough : frames.length < calls) :
    ∃ results, List.Forall₂ BodyRead (frames.map Frame.body) results ∧
      readAll calls ⟨s, false⟩ = (results, true) := by
  induction frames generalizing s calls with
  | nil =>
    obtain ⟨calls, rfl⟩ : ∃ c, calls = c + 1 := ⟨calls - 1, by simp at enough; omega⟩
    obtain ⟨s', reads⟩ := read_nothing holds false
    exact ⟨[], .nil, by rw [readAll, reads]⟩
  | cons f frames ih =>
    obtain ⟨calls, rfl⟩ : ∃ c, calls = c + 1 := ⟨calls - 1, by simp at enough; omega⟩
    -- the stream is left at the next frame whatever this one's body was
    obtain ⟨s', result, holds', body, reads⟩ := f.read holds
    obtain ⟨results, bodies, rest⟩ := ih holds' (Nat.lt_of_succ_lt_succ enough)
    exact ⟨result :: results, .cons body bodies, by rw [readAll_ofResult calls reads, rest]⟩

/-! ## Alignment -/

theorem exists_frames_of_messages {messages : List Message}
    (fit : ∀ m ∈ messages, Utf8.size m.text ≤ maxContentLength) :
    ∃ frames : List Frame,
      frames.map Frame.body = messages.map (fun m => Utf8.encodeString m.text) ∧
      frames.flatMap Frame.octets = messages.flatMap (fun m => Utf8.encodeString m.frame) := by
  induction messages with
  | nil => exact ⟨[], rfl, rfl⟩
  | cons m messages ih =>
    rw [List.forall_mem_cons, Utf8.size_eq_length] at fit
    obtain ⟨frames, bodies, octets⟩ := ih fit.2
    refine ⟨.written m.text fit.1 :: frames, ?_, ?_⟩
    · rw [List.map_cons, List.map_cons, bodies]
      rfl
    · rw [List.flatMap_cons, List.flatMap_cons, octets, Frame.octets_written]
      rfl

theorem eq_map_parse_of_bodyRead {messages : List Message}
    {results : List (Except FrameError Message)}
    (bodies : List.Forall₂ BodyRead (messages.map fun m => Utf8.encodeString m.text) results) :
    results = messages.map fun m => (Message.parse m.text).mapError .notMessage := by
  induction messages generalizing results with
  | nil =>
    cases bodies
    rfl
  | cons m messages ih =>
    cases bodies with
    | cons body bodies => rw [List.map_cons, body.eq_of_text, ih bodies]

/-- Messages that are written are read one by one, each to what its own text gives. -/
theorem readAll_messages {messages : List Message}
    (fit : ∀ m ∈ messages, Utf8.size m.text ≤ maxContentLength) {s : OctetStream}
    (holds : s.Holds (messages.flatMap fun m => Utf8.encodeString m.frame)) {calls : Nat}
    (enough : messages.length < calls) :
    readAll calls ⟨s, false⟩
      = (messages.map fun m => (Message.parse m.text).mapError .notMessage, true) := by
  obtain ⟨frames, bodies, octets⟩ := exists_frames_of_messages fit
  rw [← octets] at holds
  have count : frames.length = messages.length := by simpa using congrArg List.length bodies
  obtain ⟨results, read, reads⟩ := readAll_frames holds (count ▸ enough)
  rw [bodies] at read
  rw [reads, eq_map_parse_of_bodyRead read]

/-- **Frames stay aligned.**  However the octets of frames are cut into chunks, the calls of the
    reader give one result for each frame, in order, each by its own body alone: the message the body
    is the text of, or an error that says the frame is malformed.  Then the stream is at its end.
    Messages that are written are read back so, one result for each. -/
theorem frames_stay_aligned :
    (∀ (frames : List Frame) (chunks : List (List UInt8)), [] ∉ chunks →
      chunks.flatten = frames.flatMap Frame.octets → ∀ calls, frames.length < calls →
      ∃ results, List.Forall₂ BodyRead (frames.map Frame.body) results ∧
        (∀ e : FrameError, .error e ∈ results → e.isMalformed = true) ∧
        readAll calls { stream := .ofChunks chunks } = (results, true)) ∧
    (∀ (messages : List Message) (chunks : List (List UInt8)), [] ∉ chunks →
      chunks.flatten = messages.flatMap (fun m => Utf8.encodeString m.frame) →
      (∀ m ∈ messages, Utf8.size m.text ≤ maxContentLength) →
      ∀ calls, messages.length < calls →
      readAll calls { stream := .ofChunks chunks }
        = (messages.map fun m => (Message.parse m.text).mapError .notMessage, true)) := by
  constructor
  · intro frames chunks filled whole calls enough
    have holds := OctetStream.holds_ofChunks filled
    rw [whole] at holds
    obtain ⟨results, bodies, reads⟩ := readAll_frames holds enough
    exact ⟨results, bodies, fun e mem => isMalformed_of_bodies bodies mem, reads⟩
  · intro messages chunks filled whole fit calls enough
    have holds := OctetStream.holds_ofChunks filled
    rw [whole] at holds
    exact readAll_messages fit holds enough

/-- A header that is not the one of the length. -/
def Line.contentType : Line where
  octets := Utf8.encodeString " Content-Type: x\r"
  single := by decide

theorem Line.isOther_contentType : Line.contentType.IsOther := by
  have text : Line.contentType.text = " Content-Type".toList ++ ':' :: " x\r".toList := by decide
  exact isOther_of_text text (by decide) (by decide)

/-- The header of the length, as it need not be written. -/
def Line.oddlyTells : Line where
  octets := Utf8.encodeString "\tCONTENT-length : +02 "
  single := by decide

theorem Line.tells_oddlyTells : Line.oddlyTells.Tells 2 := by
  have octets : Line.oddlyTells.octets = Utf8.encode ("\t".toList ++ "CONTENT-length".toList
      ++ " ".toList ++ ':' :: (" ".toList ++ "+02".toList ++ " ".toList)) := by decide
  have solid : "+02".toList.all (!Text.isBlank ·) = true := by decide
  exact tells_of_octets octets (List.all_eq_true.mp (by decide)) (List.all_eq_true.mp (by decide))
    (by decide) (fun c mem => by simpa using List.all_eq_true.mp solid c mem) (by decide)

/-- A body that is no text and has a line feed in it, after a blank line and two headers. -/
def Frame.brokenText : Frame where
  body := [0x0A, 0xFF]
  header := {
    blanks := [.carriageReturn]
    before := []
    length := .oddlyTells
    after := [.contentType]
    last := .carriageReturn
    blanks_blank := by simpa using Line.isBlank_carriageReturn
    before_other := by simp
    length_tells := Line.tells_oddlyTells
    after_other := by simpa using Line.isOther_contentType
    last_blank := Line.isBlank_carriageReturn }
  fits := by decide

/-- Octet by octet: a body that is no text, then one that looks like a header; and the frame of a
    message in one chunk. -/
theorem frames_stay_aligned_octetByOctet :
    let header : Frame := .written "Content-Length: 9\r\n\r\n" (by decide)
    let octets := [Frame.brokenText, header].flatMap Frame.octets
    let exit : Message := .notification { method := "exit" }
    ([] ∉ octets.map (fun b => [b]) ∧ (octets.map fun b => [b]).flatten = octets ∧
      ∃ results, List.Forall₂ BodyRead [Frame.brokenText.body, header.body] results ∧
        (∀ e : FrameError, .error e ∈ results → e.isMalformed = true) ∧
        readAll 3 { stream := .ofChunks (octets.map fun b => [b]) } = (results, true)) ∧
    ((∀ m ∈ [exit], Utf8.size m.text ≤ maxContentLength) ∧
      readAll 2 { stream := .ofChunks [Utf8.encodeString exit.frame] }
        = ([(Message.parse exit.text).mapError .notMessage], true)) := by
  intro header octets exit
  have filled := OctetStream.singles_filled octets
  have whole := OctetStream.flatten_singles octets
  have fit : ∀ m ∈ [exit], Utf8.size m.text ≤ maxContentLength := by
    simp only [List.mem_singleton, forall_eq]
    decide
  refine ⟨⟨filled, whole, ?_⟩, fit, ?_⟩
  · exact frames_stay_aligned.1 [Frame.brokenText, header] _ filled whole 3 (by decide)
  · exact frames_stay_aligned.2 [exit] [Utf8.encodeString exit.frame] (by decide) (by simp) fit 2
      (by decide)

end LanguageClient.FrameReader
