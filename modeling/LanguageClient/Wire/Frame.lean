import LanguageClient.Protocol.Message
import LanguageClient.Text.Replace
import LanguageClient.Text.Utf8
/-!
# Frames

On the wire a message is a header `Content-Length: n`, an empty line, and `n` octets of UTF-8.

`FrameReader.read` takes the next message out of a stream that comes in chunks.  A frame that is not
as it should be is an error of the kind `malformed`; the reader stays usable.  When the header told
no length, the body cannot be skipped by counting: the reader then drops every line up to one that
contains `content-length`, and starts a header there.
-/

namespace LanguageClient

/-! ## Writing -/

/-- A text in its frame. -/
def framed (body : String) : String :=
  "Content-Length: " ++ toString (Utf8.size body) ++ "\r\n\r\n" ++ body

/-- The text of a message in its frame. -/
def Message.frame (m : Message) : String :=
  framed m.text

/-! ## Octet streams -/

/-- A stream of octets that comes in chunks.  An empty chunk looks like the end of the stream to the
    one who reads it.  `ended` says that nothing comes after the last chunk. -/
structure OctetStream where
  chunks : List (List UInt8) := []
  ended : Bool := false
  deriving DecidableEq, Inhabited

namespace OctetStream

/-- A stream of which nothing else will come. -/
def ofChunks (chunks : List (List UInt8)) : OctetStream :=
  { chunks, ended := true }

/-- Cuts octets into pieces of `size` each, with what is left in the last. -/
def cut (size : Nat) (octets : List UInt8) : List (List UInt8) :=
  go octets.length octets
where
  /-- Each piece takes octets, so that their number is fuel enough. -/
  go : Nat → List UInt8 → List (List UInt8)
    | 0, _ => []
    | _, [] => []
    | fuel + 1, octets => octets.take size :: go fuel (octets.drop size)

/-- Adds octets at the end. -/
def feed (s : OctetStream) (octets : List UInt8) : OctetStream :=
  if octets.isEmpty then s else { s with chunks := s.chunks ++ [octets] }

/-- Nothing comes any more. -/
def finish (s : OctetStream) : OctetStream :=
  { s with ended := true }

/-- What a reader may find out about a stream. -/
inductive Taken (α : Type) where
  /-- The stream has not got far enough yet. -/
  | starved
  | got (value : α) (rest : OctetStream)

/-- The part of a chunk up to a line feed, and what follows it. -/
def splitLine : List UInt8 → List UInt8 × Option (List UInt8)
  | [] => ([], none)
  | b :: rest =>
    if b = 0x0A then ([b], some rest)
    else
      let (line, after) := splitLine rest
      (b :: line, after)

/-- Puts what is left of a chunk back; a chunk that was read to its end is gone. -/
def withRest (rest : List UInt8) (chunks : List (List UInt8)) : List (List UInt8) :=
  if rest.isEmpty then chunks else rest :: chunks

/-- Puts octets before those that were taken. -/
def Taken.prepend (octets : List UInt8) : Taken (List UInt8) → Taken (List UInt8)
  | .starved => .starved
  | .got more rest => .got (octets ++ more) rest

/-- Takes a line with its line feed, or what is left before the end of the stream. -/
def takeLineFrom (ended : Bool) : List (List UInt8) → Taken (List UInt8)
  | [] => if ended then .got [] ⟨[], true⟩ else .starved
  | [] :: chunks => .got [] ⟨chunks, ended⟩
  | chunk :: chunks =>
    match splitLine chunk with
    | (line, some rest) => .got line ⟨withRest rest chunks, ended⟩
    | (part, none) => (takeLineFrom ended chunks).prepend part

/-- Takes a line with its line feed, or what is left before the end of the stream. -/
def takeLine (s : OctetStream) : Taken (List UInt8) :=
  takeLineFrom s.ended s.chunks

/-- Puts octets before those that were taken, if the stream did not end. -/
def Taken.prepend? (octets : List UInt8) :
    Taken (Option (List UInt8)) → Taken (Option (List UInt8))
  | .starved => .starved
  | .got more rest => .got (more.map (octets ++ ·)) rest

/-- Takes exactly `n` octets; none when the stream ends before. -/
def takeExactFrom (ended : Bool) : List (List UInt8) → Nat → Taken (Option (List UInt8))
  | chunks, 0 => .got (some []) ⟨chunks, ended⟩
  | [], _ + 1 => if ended then .got none ⟨[], true⟩ else .starved
  | [] :: chunks, _ + 1 => .got none ⟨chunks, ended⟩
  | chunk :: chunks, n + 1 =>
    if n + 1 < chunk.length then
      .got (some (chunk.take (n + 1))) ⟨chunk.drop (n + 1) :: chunks, ended⟩
    else (takeExactFrom ended chunks (n + 1 - chunk.length)).prepend? chunk

/-- Takes exactly `n` octets; none when the stream ends before. -/
def takeExact (s : OctetStream) (n : Nat) : Taken (Option (List UInt8)) :=
  takeExactFrom s.ended s.chunks n

/-- The number of octets that have come and were not read. -/
def size (s : OctetStream) : Nat :=
  s.chunks.flatten.length

end OctetStream

/-! ## Reading -/

/-- The longest body that is taken. -/
def maxContentLength : Nat := 67108864

/-- What is wrong with a frame. -/
inductive FrameError where
  /-- The header has no length. -/
  | noLength
  /-- The length is no number. -/
  | badLength
  | tooLong (length : Nat)
  /-- The body is not UTF-8. -/
  | notText
  | notMessage (cause : MessageError)
  /-- The stream ended inside the header. -/
  | endInHeader
  /-- The stream ended inside the body. -/
  | endInBody
  deriving DecidableEq, Repr

namespace FrameError

/-- Whether the stream can be read on after the error. -/
def isMalformed : FrameError → Bool
  | endInHeader | endInBody => false
  | _ => true

/-- The text for an error, where it has one of its own. -/
def message? : FrameError → Option String
  | noLength => some "Missing Content-Length"
  | tooLong length =>
    some ("Content-Length " ++ toString length ++ " exceeds " ++ toString maxContentLength
      ++ " bytes")
  | endInHeader => some "Connection closed inside message headers"
  | notMessage .noKind => some "Invalid LSP message"
  | _ => none

end FrameError

/-- A reader of frames. -/
structure FrameReader where
  stream : OctetStream := {}
  /-- A frame was dropped without its body, so the next header has to be looked for. -/
  resync : Bool := false
  deriving Inhabited

namespace FrameReader

/-- The name of the header that counts, in lower case. -/
def lengthHeader : List Char := "content-length".toList

/-- What follows the first place where a text contains the name of the length header in any case,
    the name included. -/
def findLengthHeader : List Char → Option (List Char)
  | [] => none
  | c :: rest =>
    if (Text.dropPrefix? lengthHeader ((c :: rest).map Text.lowerAscii)).isSome then
      some (c :: rest)
    else findLengthHeader rest

/-- What a line of the header says. -/
inductive HeaderLine where
  | blank
  | length (n : Nat)
  /-- A header that does not count. -/
  | other
  | bad (e : FrameError)
  deriving DecidableEq, Repr

/-- Reads a line of the header. -/
def headerLine (line : List Char) : HeaderLine :=
  if line.isEmpty then .blank
  else
    match Text.splitOnce ':' line with
    | none => .other
    | some (name, value) =>
      if (Text.trimChars name).map Text.lowerAscii = lengthHeader then
        match Numeral.natural? Numeral.maxWord64 (String.ofList (Text.trimChars value)) with
        | none => .bad .badLength
        | some n => if n > maxContentLength then .bad (.tooLong n) else .length n
      else .other

/-- What a call of the reader comes to. -/
inductive Outcome (α : Type) where
  /-- More octets are wanted; nothing has been read. -/
  | starved
  /-- The stream ended between two messages. -/
  | ended (reader : FrameReader)
  | failed (e : FrameError) (reader : FrameReader)
  | read (value : α) (reader : FrameReader)

/-- Reads lines up to the end of the header.  `length` is the length told so far, `begun` says that
    the header has begun.  Every line takes octets from the stream, so that the fuel of one more than
    their number is enough. -/
def readHeader (fuel : Nat) (r : FrameReader) (length : Option Nat) (begun : Bool) :
    Outcome Nat :=
  match fuel with
  | 0 => .starved
  | fuel + 1 =>
    match r.stream.takeLine with
    | .starved => .starved
    | .got [] stream =>
      if begun then .failed .endInHeader { r with stream } else .ended { r with stream }
    | .got octets stream =>
      let line := Text.trimChars (Utf8.decodeLossy octets)
      match (if r.resync then findLengthHeader line else some line) with
      | none => readHeader fuel { r with stream } length begun
      | some line =>
        let r : FrameReader := { stream, resync := false }
        match headerLine line with
        | .blank =>
          if begun then
            match length with
            | some n => .read n r
            | none => .failed .noLength { r with resync := true }
          else readHeader fuel r length begun
        | .other => readHeader fuel r length true
        | .length n => readHeader fuel r (some n) true
        | .bad e => .failed e { r with resync := true }

/-- Reads a body of the given length. -/
def readBody (r : FrameReader) (length : Nat) : Outcome Message :=
  match r.stream.takeExact length with
  | .starved => .starved
  | .got none stream => .failed .endInBody { r with stream }
  | .got (some octets) stream =>
    let r := { r with stream }
    match Utf8.decode? octets with
    | none => .failed .notText r
    | some text =>
      match Message.parseChars text with
      | .error e => .failed (.notMessage e) r
      | .ok m => .read m r

/-- Reads the next message. -/
def read (r : FrameReader) : Outcome Message :=
  match readHeader (r.stream.size + 1) r none false with
  | .starved => .starved
  | .ended r => .ended r
  | .failed e r => .failed e r
  | .read length r => readBody r length

/-- What at most `fuel` calls of the reader come to, up to the end of the stream, and whether the end
    was reached.  An error does not stop the reading. -/
def readAll (fuel : Nat) (r : FrameReader) : List (Except FrameError Message) × Bool :=
  match fuel with
  | 0 => ([], false)
  | fuel + 1 =>
    match r.read with
    | .starved => ([], false)
    | .ended _ => ([], true)
    | .failed e r => let (rest, ended) := readAll fuel r; (.error e :: rest, ended)
    | .read m r => let (rest, ended) := readAll fuel r; (.ok m :: rest, ended)

end FrameReader

end LanguageClient
