import LanguageClient.Json.Parser
import LanguageClient.Json.Payload
import LanguageClient.Json.Printer
/-!
# Messages

Requests, responses and notifications.  A message is a request when it has an id and a method, a
response when it has an id only, and a notification when it has a method only.

The id of a request is a number or a text; a text that is a numeral counts as its number when the
client looks for the request that a response belongs to.
-/

namespace LanguageClient

/-! ## Ids -/

/-- The id of a request. -/
inductive RequestId where
  | number (n : UInt64)
  | text (s : String)
  deriving DecidableEq, Repr, Inhabited

namespace RequestId

/-- The number of an id; a numeral counts as its number. -/
def asNumber : RequestId → Option Nat
  | number n => some n.toNat
  | text s => Numeral.natural? Numeral.maxWord64 s

/-- An id as a user reads it. -/
def display : RequestId → String
  | number n => toString n.toNat
  | text s => "\"" ++ s ++ "\""

instance : Payload RequestId where
  toJson
    | number n => toJson n
    | text s => toJson s
  ofJson v :=
    match (ofJson v : Decoded UInt64), (ofJson v : Decoded String) with
    | .ok n, _ => .ok (number n)
    | _, .ok s => .ok (text s)
    | _, _ => .error (.noAlternative "RequestId")

end RequestId

/-! ## Errors in responses -/

/-- Why a request failed. -/
structure ResponseError where
  code : Int32
  message : String
  data : Option Json := none
  deriving DecidableEq, Inhabited

namespace ErrorCode

def methodNotFound : Int32 := -32601

def invalidParams : Int32 := -32602

def internalError : Int32 := -32603

def requestCancelled : Int32 := -32800

/-- The connection ended before the response came; no server sends it. -/
def serverTerminated : Int32 := -32099

end ErrorCode

namespace ResponseError

def members (e : ResponseError) : List (String × Json) :=
  [("code", toJson e.code), ("message", toJson e.message)] ++ Json.present "data" e.data

instance : Payload ResponseError where
  toJson e := .object e.members
  ofJson := Json.readRecord (do
    let code ← .field "code"
    let message ← .field "message"
    let data ← .optional "data"
    return { code, message, data }) "ResponseError"

/-- An error as a user reads it. -/
def display (e : ResponseError) : String :=
  "[" ++ toString e.code.toInt ++ "] " ++ e.message

/-- The answer to a request that nobody handles. -/
def methodNotFound (method : String) : ResponseError :=
  { code := ErrorCode.methodNotFound, message := "Method not found: " ++ method }

end ResponseError

/-! ## The three kinds of message -/

/-- A message that wants a response. -/
structure Request where
  version : String := "2.0"
  id : RequestId
  method : String
  params : Option Json := none
  deriving DecidableEq, Inhabited

/-- The answer to a request. -/
structure Response where
  version : String := "2.0"
  id : Option RequestId
  result : Option Json := none
  error : Option ResponseError := none
  deriving DecidableEq, Inhabited

/-- A message without response. -/
structure Notification where
  version : String := "2.0"
  method : String
  params : Option Json := none
  deriving DecidableEq, Inhabited

namespace Request

def members (r : Request) : List (String × Json) :=
  [("jsonrpc", toJson r.version), ("id", toJson r.id), ("method", toJson r.method)]
    ++ Json.present "params" r.params

instance : Payload Request where
  toJson r := .object r.members
  ofJson := Json.readRecord (do
    let version ← .field "jsonrpc"
    let id ← .field "id"
    let method ← .field "method"
    let params ← .optional "params"
    return { version, id, method, params }) "Request"

end Request

namespace Response

def success (id : RequestId) (result : Json) : Response :=
  { id := some id, result := some result }

def failure (id : RequestId) (error : ResponseError) : Response :=
  { id := some id, error := some error }

def members (r : Response) : List (String × Json) :=
  [("jsonrpc", toJson r.version), ("id", toJson r.id)]
    ++ Json.present "result" r.result
    ++ Json.present "error" (r.error.map fun e => Json.obj e.members)

instance : Payload Response where
  toJson r := .object ([("jsonrpc", toJson r.version), ("id", toJson r.id)]
    ++ Json.present "result" r.result ++ Json.present "error" r.error)
  ofJson := Json.readRecord (do
    let version ← .field "jsonrpc"
    let id ← .optional "id"
    let result ← .optional "result"
    let error ← .optional "error"
    return { version, id, result, error }) "Response"

def isSuccess (r : Response) : Bool :=
  r.error.isNone

/-- The outcome of the request; an absent result is `null`. -/
def outcome (r : Response) : Except ResponseError Json :=
  match r.error with
  | some e => .error e
  | none => .ok (r.result.getD .null)

end Response

namespace Notification

def members (n : Notification) : List (String × Json) :=
  [("jsonrpc", toJson n.version), ("method", toJson n.method)] ++ Json.present "params" n.params

instance : Payload Notification where
  toJson n := .object n.members
  ofJson := Json.readRecord (do
    let version ← .field "jsonrpc"
    let method ← .field "method"
    let params ← .optional "params"
    return { version, method, params }) "Notification"

end Notification

/-! ## Messages of any kind -/

inductive Message where
  | request (r : Request)
  | response (r : Response)
  | notification (n : Notification)
  deriving DecidableEq, Inhabited

/-- Why a text is no message. -/
inductive MessageError where
  /-- The text is no JSON. -/
  | notJson
  /-- Some member is not what it should be. -/
  | malformed (cause : DecodeError)
  /-- There is neither an id nor a method. -/
  | noKind
  deriving DecidableEq, Repr

namespace Message

def toJson : Message → Json
  | request r => LanguageClient.toJson r
  | response r => LanguageClient.toJson r
  | notification n => LanguageClient.toJson n

def members : Message → List (String × Json)
  | request r => r.members
  | response r => r.members
  | notification n => n.members

def text (m : Message) : String :=
  Json.render (.obj m.members)

/-- Reads a member of the kind that the presence of id and method tells. -/
def ofJson (v : Json) : Except MessageError Message :=
  match (v.get? "id").isSome, (v.get? "method").isSome with
  | true, true => ((LanguageClient.ofJson v : Decoded Request).map request).mapError .malformed
  | true, false => ((LanguageClient.ofJson v : Decoded Response).map response).mapError .malformed
  | false, true =>
    ((LanguageClient.ofJson v : Decoded Notification).map notification).mapError .malformed
  | false, false => .error .noKind

def parseChars (cs : List Char) : Except MessageError Message :=
  match Json.parseChars? cs with
  | some v => ofJson v
  | none => .error .notJson

def parse (s : String) : Except MessageError Message :=
  parseChars s.toList

end Message

end LanguageClient
