import LanguageClient.Document.Language
import LanguageClient.Protocol.Diagnostic
import LanguageClient.Protocol.TextDocument
import LanguageClient.Protocol.Initialize
import LanguageClient.Protocol.Message
import LanguageClient.Protocol.Registration
/-!
# The types of the protocol by name

For each type that goes over the wire, `normalize?` reads a value as one of that type and writes it
again.  The result is the form in which the client itself writes the value.
-/

namespace LanguageClient.Catalogue

/-- A value read as one of a type and written again. -/
def through (α : Type) [Payload α] (v : Json) : Decoded Json :=
  (ofJson v : Decoded α).map toJson

/-- The normal form of a value of a named type; none when there is no type of that name. -/
def normalize? : String → Option (Json → Decoded Json)
  | "Position" => some (through Position)
  | "Range" => some (through Range)
  | "TextEdit" => some (through TextEdit)
  | "TextChange" => some (through TextChange)
  | "SaveReason" => some (through SaveReason)
  | "DocumentVersion" => some (through DocumentVersion)
  | "RequestId" => some (through RequestId)
  | "ResponseError" => some (through ResponseError)
  | "TextDocumentIdentifier" => some (through TextDocumentIdentifier)
  | "VersionedTextDocumentIdentifier" => some (through VersionedTextDocumentIdentifier)
  | "TextDocumentItem" => some (through TextDocumentItem)
  | "TextDocumentPositionParams" => some (through TextDocumentPositionParams)
  | "ReferenceParams" => some (through ReferenceParams)
  | "DidChangeTextDocumentParams" => some (through DidChangeParams)
  | "DidSaveTextDocumentParams" => some (through DidSaveParams)
  | "WillSaveTextDocumentParams" => some (through WillSaveParams)
  | "DocumentFormattingParams" => some (through DocumentFormattingParams)
  | "InitializeParams" => some (through InitializeParams)
  | "ClientCapabilities" => some (through ClientCapabilities)
  | "TextDocumentSync" => some (through DocumentSyncOption)
  | "SaveOption" => some (through SaveOption)
  | "InitializeResult" => some (through InitializeResult)
  | "Registration" => some (through Registration)
  | "RegistrationParams" => some (through RegistrationParams)
  | "UnregistrationParams" => some (through UnregistrationParams)
  | "FilesParams" => some (through FilesParams)
  | "ContentParams" => some (through ContentParams)
  | "Diagnostic" => some (through Diagnostic)
  | "PublishDiagnosticsParams" => some (through PublishDiagnosticsParams)
  | "LogMessageParams" => some (through LogMessageParams)
  | "DocumentFilter" => some (through DocumentFilter)
  | _ => none

end LanguageClient.Catalogue
