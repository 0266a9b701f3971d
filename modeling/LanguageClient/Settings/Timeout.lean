import LanguageClient.Settings.Basic
/-!
# How long a request may take

A request is of one of four kinds, told by its method, and each kind has a time of its own.  Searches
over the whole workspace get four times what other requests get.
-/

namespace LanguageClient

inductive OperationKind where
  | request
  | workspaceOperation
  | initialization
  | shutdown
  deriving DecidableEq, Repr, Inhabited

namespace OperationKind

def ofMethod : String → OperationKind
  | "workspace/symbol" | "textDocument/references" | "textDocument/implementation"
  | "textDocument/rename" => workspaceOperation
  | "initialize" => initialization
  | "shutdown" => shutdown
  | _ => request

def text : OperationKind → String
  | request => "Request"
  | workspaceOperation => "WorkspaceOperation"
  | initialization => "Initialization"
  | shutdown => "Shutdown"

end OperationKind

namespace TimingSettings

/-- The seconds that a method gets; none when they do not fit a word of 64 bits. -/
def secondsFor? (s : TimingSettings) (method : String) : Option UInt64 :=
  match OperationKind.ofMethod method with
  | .request => some s.timeoutSecs
  | .workspaceOperation =>
    if s.timeoutSecs.toNat * 4 ≤ 18446744073709551615 then some (s.timeoutSecs * 4) else none
  | .initialization => some s.initTimeoutSecs
  | .shutdown => some s.shutdownTimeoutSecs

/-- The milliseconds that a method gets by the standard settings. -/
def standardMillis (method : String) : Nat :=
  match OperationKind.ofMethod method with
  | .request => 30000
  | .workspaceOperation => 120000
  | .initialization => 60000
  | .shutdown => 2000

end TimingSettings

end LanguageClient
