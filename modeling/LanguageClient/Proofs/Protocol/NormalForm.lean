import LanguageClient.Protocol.Catalogue
import LanguageClient.Proofs.Protocol.Payloads
import LanguageClient.Proofs.Settings.Payloads
/-!
# Normal forms

Reading a value forgets what its type has no place for, and writing it again gives its normal form.
A normal form is read as the value that it was written for: nothing that was read is lost, renamed
or taken for something else, not in records that stand within others and not where one of several
alternatives was taken.  So the normal form of a normal form is the same one.

`Listed` are the types of the protocol and of the settings.
-/

namespace LanguageClient.Catalogue

/-- The types of the values that are sent, received or kept in settings. -/
inductive Listed : (α : Type) → [Payload α] → Prop
  -- documents
  | position : Listed Position
  | range : Listed Range
  | textEdit : Listed TextEdit
  | textChange : Listed TextChange
  | documentVersion : Listed DocumentVersion
  | saveReason : Listed SaveReason
  | documentFilter : Listed DocumentFilter
  -- messages
  | requestId : Listed RequestId
  | responseError : Listed ResponseError
  | request : Listed Request
  | response : Listed Response
  | notification : Listed Notification
  -- parameters about documents
  | textDocumentIdentifier : Listed TextDocumentIdentifier
  | versionedTextDocumentIdentifier : Listed VersionedTextDocumentIdentifier
  | textDocumentItem : Listed TextDocumentItem
  | textDocumentPositionParams : Listed TextDocumentPositionParams
  | referenceContext : Listed ReferenceContext
  | referenceParams : Listed ReferenceParams
  | didOpenParams : Listed DidOpenParams
  | didChangeParams : Listed DidChangeParams
  | didCloseParams : Listed DidCloseParams
  | didSaveParams : Listed DidSaveParams
  | willSaveParams : Listed WillSaveParams
  | formattingOptions : Listed FormattingOptions
  | documentFormattingParams : Listed DocumentFormattingParams
  -- the handshake
  | clientCapabilities : Listed ClientCapabilities
  | programInfo : Listed ProgramInfo
  | initializeParams : Listed InitializeParams
  | syncKind : Listed SyncKind
  | saveOption : Listed SaveOption
  | syncOptions : Listed SyncOptions
  | documentSyncOption : Listed DocumentSyncOption
  | serverCapabilities : Listed ServerCapabilities
  | initializeResult : Listed InitializeResult
  -- registrations, files and diagnostics
  | registration : Listed Registration
  | registrationParams : Listed RegistrationParams
  | unregistration : Listed Unregistration
  | unregistrationParams : Listed UnregistrationParams
  | filesParams : Listed FilesParams
  | contentParams : Listed ContentParams
  | severity : Listed Severity
  | diagnostic : Listed Diagnostic
  | publishDiagnosticsParams : Listed PublishDiagnosticsParams
  | logMessageParams : Listed LogMessageParams
  -- settings
  | timingSettings : Listed TimingSettings
  | filesSettings : Listed FilesSettings
  | serverConfig : Listed ServerConfig
  | clientConfig : Listed ClientConfig
  -- several values, or none
  | list {α : Type} [Payload α] (items : Listed α) : Listed (List α)
  | option {α : Type} [Payload α] (inner : Listed α) : Listed (Option α)

theorem Listed.faithful {α : Type} [Payload α] (listed : Listed α) : Faithful α := by
  induction listed <;> infer_instance

/-- The normal form of a normal form is the same one. -/
theorem through_again {α : Type} [Payload α] [Faithful α] {v w : Json} (held : v.Held)
    (read : through α v = .ok w) : through α w = .ok w := by
  cases first : (ofJson v : Decoded α) with
  | error e => rw [through, first] at read; cases read
  | ok x =>
    rw [through, first] at read
    cases read
    rw [through, Faithful.toFaithfulForm.reads_back held first]
    rfl

/-- **Normal forms.**  What a value was read as, the value that is written for it is read as again;
    so it is its own normal form, and a value that the client can hold. -/
theorem Listed.normal_form {α : Type} [Payload α] (listed : Listed α) {v : Json} {x : α}
    (held : v.Held) (read : ofJson v = .ok x) :
    ofJson (toJson x) = .ok x ∧ through α (toJson x) = .ok (toJson x) ∧ (toJson x).Held := by
  have faithful := listed.faithful
  have form := faithful.toFaithfulForm
  have written : through α v = .ok (toJson x) := by
    rw [through, read]
    rfl
  exact ⟨form.reads_back held read, through_again held written, form.held held read⟩

/-- Capabilities of a server with an array for what it wants to be told and with `null` where it
    might lay out documents; and a server that listens, with a command that is none. -/
theorem Listed.normal_form_capabilities :
    (ofJson (toJson (ServerCapabilities.mk
        (some (.options ⟨some true, some .incremental, none, none, some (.options (some true))⟩))
        none [("hoverProvider", .bool true)]))
      = .ok (ServerCapabilities.mk
        (some (.options ⟨some true, some .incremental, none, none, some (.options (some true))⟩))
        none [("hoverProvider", .bool true)])) ∧
    ofJson (toJson (ServerConfig.mk "ts" (.socket "127.0.0.1:2088") [] ["**/*.ts"] none))
      = .ok (ServerConfig.mk "ts" (.socket "127.0.0.1:2088") [] ["**/*.ts"] none) := by
  constructor
  · refine (Listed.serverCapabilities.normal_form
      (v := .obj [("documentFormattingProvider", .null), ("hoverProvider", .bool true),
        ("textDocumentSync", .arr [.bool true, .int 2, .null, .null, .arr [.bool true]])])
      ?_ (by decide +kernel)).1
    have inOrder : Json.InOrder [("documentFormattingProvider", .null),
        ("hoverProvider", .bool true),
        ("textDocumentSync", .arr [.bool true, .int 2, .null, .null, .arr [.bool true]])] := by
      unfold Json.InOrder
      decide +kernel
    refine Json.throughout_obj.mpr ⟨inOrder, ?_⟩
    simp [Json.throughout_arr, Json.HeldAt, Json.Fits64]
  · refine (Listed.serverConfig.normal_form
      (v := .obj [("address", .str "127.0.0.1:2088"), ("command", .int 5), ("name", .str "ts"),
        ("patterns", .arr [.str "**/*.ts"])])
      ?_ (by decide +kernel)).1
    have inOrder : Json.InOrder [("address", .str "127.0.0.1:2088"), ("command", .int 5),
        ("name", .str "ts"), ("patterns", .arr [.str "**/*.ts"])] := by
      unfold Json.InOrder
      decide +kernel
    refine Json.throughout_obj.mpr ⟨inOrder, ?_⟩
    simp [Json.throughout_arr, Json.HeldAt, Json.Fits64]

end LanguageClient.Catalogue
