import LanguageClient.Protocol.Message
/-!
# What can go wrong

`ClientError` has a constructor for every cause; `message` is the text that a user reads, `code`
the number that a server is told.
-/

namespace LanguageClient

/-! ## The operating system -/

/-- Why the operating system refused something. -/
inductive SystemError where
  | noSuchFile
  | isDirectory
  | notDirectory
  | fileExists
  /-- The reader at the other end is gone. -/
  | brokenPipe
  /-- A text file is not UTF-8. -/
  | notText
  | other (message : String)
  deriving DecidableEq, Repr, Inhabited

namespace SystemError

def message : SystemError → String
  | noSuchFile => "No such file or directory (os error 2)"
  | isDirectory => "Is a directory (os error 21)"
  | notDirectory => "Not a directory (os error 20)"
  | fileExists => "File exists (os error 17)"
  | brokenPipe => "broken pipe"
  | notText => "stream did not contain valid UTF-8"
  | other message => message

end SystemError

/-! ## Talking to a server -/

/-- Why something that concerns a server failed. -/
inductive ClientError where
  | transport (reason : String)
  | notConnected
  /-- Someone does not keep to the protocol. -/
  | protocol (reason : String)
  | server (error : ResponseError)
  /-- The handshake failed; `retry` says that the server wants it to be tried again. -/
  | handshake (reason : String) (retry : Bool)
  /-- The change is older than what the server has. -/
  | staleVersion (uri : String) (version lastSent : Int32)
  | cancelled
  | timeout (reason : String)
  /-- The connection ended before the answer came. -/
  | terminated (server : String)
  | duplicateHandler (method : String)
  | alreadyListening
  /-- The session is in a state in which this cannot be done. -/
  | invalidState (server state : String)
  | system (cause : SystemError)
  | undecodable (cause : DecodeError)
  deriving DecidableEq, Inhabited

namespace ClientError

def message : ClientError → String
  | transport reason => "Cannot reach server: " ++ reason
  | notConnected => "Server not connected"
  | protocol reason => "Protocol error: " ++ reason
  | .server e => "Server error " ++ "[" ++ toString e.code.toInt ++ "]: " ++ e.message
  | handshake reason _ => "Server initialization failed: " ++ reason
  | staleVersion uri version lastSent =>
    "Stale version " ++ toString version.toInt ++ " for " ++ uri ++ " (already sent "
      ++ toString lastSent.toInt ++ ")"
  | cancelled => "Request cancelled"
  | timeout reason => reason
  | terminated name => name ++ " language server terminated unexpectedly"
  | duplicateHandler method => "Handler already registered for '" ++ method ++ "'"
  | alreadyListening => "Connection is already listening"
  | invalidState name state => "Session '" ++ name ++ "' is " ++ state
  | system cause => cause.message
  | undecodable cause => cause.message

def code : ClientError → Int32
  | server e => e.code
  | terminated _ => ErrorCode.serverTerminated
  | cancelled => ErrorCode.requestCancelled
  | protocol _ | undecodable _ => ErrorCode.invalidParams
  | _ => ErrorCode.internalError

def isCancelled : ClientError → Bool
  | cancelled => true
  | server e => e.code == ErrorCode.requestCancelled
  | _ => false

def isRetryable : ClientError → Bool
  | handshake _ retry => retry
  | _ => false

/-- Whether the data of an error ask for another try. -/
def asksForRetry (data : Option Json) : Bool :=
  ((data.bind (·.get? "retry")).bind Json.bool?).getD false

/-- The error of a handshake that failed by this error. -/
def intoHandshake : ClientError → ClientError
  | server e => handshake e.message (asksForRetry e.data)
  | handshake reason retry => handshake reason retry
  | e => handshake e.message false

/-- What a server is told when its request failed by this error. -/
def toResponseError : ClientError → ResponseError
  | server e => e
  | e => { code := e.code, message := e.message }

/-- The error that a server reports. -/
def ofResponseError (e : ResponseError) : ClientError :=
  server e

end ClientError

/-! ## Settings -/

/-- Why settings cannot be had. -/
inductive ConfigError where
  | parse (reason : String)
  | notFound (reason : String)
  | invalidValue (key reason : String)
  | system (cause : SystemError)
  deriving DecidableEq, Repr, Inhabited

namespace ConfigError

def message : ConfigError → String
  | parse reason => "Config parse error: " ++ reason
  | notFound reason => reason
  | invalidValue key reason => "Invalid value for '" ++ key ++ "': " ++ reason
  | system cause => cause.message

end ConfigError

end LanguageClient
