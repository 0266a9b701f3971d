import LanguageClient.Document.Basic
/-!
# Diagnostics and messages

What a server says about a document, and what it says to the user.
-/

namespace LanguageClient

/-- How bad a diagnostic is. -/
inductive Severity where
  | error
  | warning
  | information
  | hint
  deriving DecidableEq, Repr, Inhabited

namespace Severity

def number : Severity → Int
  | error => 1
  | warning => 2
  | information => 3
  | hint => 4

def ofNumber? : Int → Option Severity
  | 1 => some error
  | 2 => some warning
  | 3 => some information
  | 4 => some hint
  | _ => none

end Severity

instance : Payload Severity where
  toJson s := .int s.number
  ofJson := readNumbered Severity.ofNumber? "one of: 1, 2, 3, 4"

/-- What a server says about a part of a document. -/
structure Diagnostic where
  range : Range
  severity : Option Severity := none
  code : Option Json := none
  source : Option String := none
  message : String
  deriving DecidableEq, Inhabited

instance : Payload Diagnostic where
  toJson d := .object ([("range", toJson d.range)] ++ Json.present "severity" d.severity
    ++ Json.present "code" d.code ++ Json.present "source" d.source
    ++ [("message", toJson d.message)])
  ofJson := Json.readRecord (do
    let range ← .field "range"
    let severity ← .optional "severity"
    let code ← .optional "code"
    let source ← .optional "source"
    let message ← .field "message"
    return { range, severity, code, source, message }) "Diagnostic"

/-- All that a server has to say about a document. -/
structure PublishDiagnosticsParams where
  uri : String
  version : Option Int32 := none
  diagnostics : List Diagnostic
  deriving DecidableEq, Inhabited

instance : Payload PublishDiagnosticsParams where
  toJson p := .object ([("uri", toJson p.uri)] ++ Json.present "version" p.version
    ++ [("diagnostics", toJson p.diagnostics)])
  ofJson := Json.readRecord (do
    let uri ← .field "uri"
    let version ← .defaulted "version" none
    let diagnostics ← .field "diagnostics"
    return { uri, version, diagnostics }) "PublishDiagnosticsParams"

/-- A message for the user or the log; `kind` tells how bad it is. -/
structure LogMessageParams where
  kind : UInt8
  message : String
  deriving DecidableEq, Repr, Inhabited

instance : Payload LogMessageParams where
  toJson p := .object [("type", toJson p.kind), ("message", toJson p.message)]
  ofJson := Json.readRecord (do
    let kind ← .field "type"
    let message ← .field "message"
    return { kind, message }) "LogMessageParams"

end LanguageClient
