import LanguageClient.Protocol.Diagnostic
import LanguageClient.Protocol.TextDocument
import LanguageClient.Protocol.Initialize
import LanguageClient.Protocol.Message
import LanguageClient.Protocol.Registration
import LanguageClient.Proofs.Document.Payloads
/-!
# The JSON forms of the protocol

Every type of the protocol has a faithful JSON form.  Most are records, and it is enough to name
the places of the record and to go through its reader once.  A record that stands within another
without a name of its own, such as a place in a document within the question for its uses, lends
its places to the other.

The capabilities of a server are no such record, since they keep all members that have no place of
their own (`ServerCapabilities.WellRead`).
-/

namespace LanguageClient

/-! ## Messages -/

instance : Faithful RequestId :=
  .ofAlternatives "RequestId" .number .text
    ⟨Faithful.toFaithfulForm (α := UInt64), Faithful.toFaithfulForm (α := String)⟩
    (fun v => by
      cases first : (ofJson v : Decoded UInt64) <;>
        cases second : (ofJson v : Decoded String) <;>
        simp only [ofJson] at first second ⊢ <;> simp only [first, second])
    ⟨fun _ => rfl, fun _ => rfl⟩ fun _ => ⟨_, rfl⟩

instance : Faithful ResponseError :=
  .ofRecord
    (fun e => [.always "code" e.code, .always "message" e.message, .present "data" e.data])
    readAsRecord (fun _ => congrArg Json.object (by simp [ResponseError.members]))
    (fun _ => by simp)
    (.bind .field fun _ => .bind .field fun _ => .bind .optional fun _ => .pure rfl)

instance : Faithful Request :=
  .ofRecord
    (fun r => [.always "jsonrpc" r.version, .always "id" r.id, .always "method" r.method,
      .present "params" r.params])
    readAsRecord
    (fun _ => congrArg Json.object (by simp [Request.members])) (fun _ => by simp)
    (.bind .field fun _ => .bind .field fun _ => .bind .field fun _ => .bind .optional fun _ =>
      .pure rfl)

instance : Faithful Response :=
  .ofRecord
    (fun r => [.always "jsonrpc" r.version, .always "id" r.id, .present "result" r.result,
      .present "error" r.error])
    readAsRecord
    (fun _ => congrArg Json.object (by simp)) (fun _ => by simp)
    (.bind .field fun _ => .bind .nullable fun _ => .bind .optional fun _ =>
      .bind .optional fun _ => .pure rfl)

instance : Faithful Notification :=
  .ofRecord
    (fun n => [.always "jsonrpc" n.version, .always "method" n.method, .present "params" n.params])
    readAsRecord
    (fun _ => congrArg Json.object (by simp [Notification.members])) (fun _ => by simp)
    (.bind .field fun _ => .bind .field fun _ => .bind .optional fun _ => .pure rfl)

/-! ## Documents -/

instance : Faithful TextDocumentIdentifier :=
  .ofRecord (fun d => [.always "uri" d.uri]) readAsRecord
    (fun _ => rfl) (fun _ => by simp)
    (.bind .field fun _ => .pure rfl)

instance : Faithful VersionedTextDocumentIdentifier :=
  .ofRecord (fun d => [.always "uri" d.uri, .always "version" d.version]) readAsRecord
    (fun _ => rfl) (fun _ => by simp)
    (.bind .field fun _ => .bind .field fun _ => .pure rfl)

instance : Faithful TextDocumentItem :=
  .ofRecord
    (fun d => [.always "uri" d.uri, .always "languageId" d.languageId, .always "version" d.version,
      .always "text" d.text])
    readAsRecord
    (fun _ => rfl) (fun _ => by simp)
    (.bind .field fun _ => .bind .field fun _ => .bind .field fun _ => .bind .field fun _ =>
      .pure rfl)

theorem TextDocumentPositionParams.rereads : reader.Rereads [] fun p =>
    [.always "textDocument" p.textDocument, .always "position" p.position] :=
  .bind .field fun _ => .bind .field fun _ => .pure rfl

instance : Faithful TextDocumentPositionParams :=
  .ofRecord _ readAsRecord (fun _ => rfl) (fun _ => by simp)
    TextDocumentPositionParams.rereads

instance : Faithful ReferenceContext :=
  .ofRecord (fun c => [.always "includeDeclaration" c.includeDeclaration]) readAsRecord
    (fun _ => rfl) (fun _ => by simp)
    (.bind .field fun _ => .pure rfl)

instance : Faithful ReferenceParams :=
  .ofRecord
    (fun p => [.always "textDocument" p.position.textDocument,
      .always "position" p.position.position, .always "context" p.context])
    readAsOpenRecord
    (fun _ => rfl) (fun _ => by simp)
    (.bind TextDocumentPositionParams.rereads fun _ => .bind .field fun _ => .pure rfl)

instance : Faithful DidOpenParams :=
  .ofRecord (fun p => [.always "textDocument" p.textDocument]) readAsRecord
    (fun _ => rfl) (fun _ => by simp)
    (.bind .field fun _ => .pure rfl)

instance : Faithful DidChangeParams :=
  .ofRecord
    (fun p => [.always "textDocument" p.textDocument, .always "contentChanges" p.contentChanges])
    readAsRecord
    (fun _ => rfl) (fun _ => by simp)
    (.bind .field fun _ => .bind .field fun _ => .pure rfl)

instance : Faithful DidCloseParams :=
  .ofRecord (fun p => [.always "textDocument" p.textDocument]) readAsRecord
    (fun _ => rfl) (fun _ => by simp)
    (.bind .field fun _ => .pure rfl)

instance : Faithful DidSaveParams :=
  .ofRecord (fun p => [.always "textDocument" p.textDocument, .present "text" p.text]) readAsRecord
    (fun _ => congrArg Json.object (by simp)) (fun _ => by simp)
    (.bind .field fun _ => .bind .optional fun _ => .pure rfl)

instance : Faithful WillSaveParams :=
  .ofRecord
    (fun p => [.always "textDocument" p.textDocument, .always "reason" p.reason])
    readAsRecord
    (fun _ => rfl) (fun _ => by simp)
    (.bind .field fun _ => .bind .field fun _ => .pure rfl)

instance : Faithful FormattingOptions :=
  .ofRecord
    (fun o => [.always "tabSize" o.tabSize, .always "insertSpaces" o.insertSpaces])
    readAsRecord
    (fun _ => rfl) (fun _ => by simp)
    (.bind .field fun _ => .bind .field fun _ => .pure rfl)

instance : Faithful DocumentFormattingParams :=
  .ofRecord
    (fun p => [.always "textDocument" p.textDocument, .always "options" p.options])
    readAsRecord
    (fun _ => rfl) (fun _ => by simp)
    (.bind .field fun _ => .bind .field fun _ => .pure rfl)

/-! ## Registrations, files and diagnostics -/

instance : Faithful Registration :=
  .ofRecord
    (fun r => [.always "id" r.id, .always "method" r.method,
      .present "registerOptions" r.registerOptions])
    readAsRecord
    (fun _ => congrArg Json.object (by simp)) (fun _ => by simp)
    (.bind .field fun _ => .bind .field fun _ => .bind .optional fun _ => .pure rfl)

instance : Faithful RegistrationParams :=
  .ofRecord (fun p => [.always "registrations" p.registrations]) readAsRecord
    (fun _ => rfl) (fun _ => by simp)
    (.bind .field fun _ => .pure rfl)

instance : Faithful Unregistration :=
  .ofRecord (fun u => [.always "id" u.id, .always "method" u.method]) readAsRecord
    (fun _ => rfl) (fun _ => by simp)
    (.bind .field fun _ => .bind .field fun _ => .pure rfl)

instance : Faithful UnregistrationParams :=
  .ofRecord (fun p => [.always "unregisterations" p.unregistrations]) readAsRecord
    (fun _ => rfl) (fun _ => by simp)
    (.bind .field fun _ => .pure rfl)

instance : Faithful FilesParams :=
  .ofRecord (fun p => [.present "base" p.base]) readAsRecord
    (fun _ => congrArg Json.object (by simp)) (fun _ => by simp)
    (.bind .defaulted_none fun _ => .pure rfl)

instance : Faithful ContentParams :=
  .ofRecord (fun p => [.always "textDocument" p.textDocument]) readAsRecord
    (fun _ => rfl) (fun _ => by simp)
    (.bind .field fun _ => .pure rfl)

instance : Faithful Severity :=
  .ofNumbered (fun _ => rfl) (fun _ => rfl) (fun s => by cases s <;> decide)
    (fun s => by cases s <;> rfl)

instance : Faithful Diagnostic :=
  .ofRecord
    (fun d => [.always "range" d.range, .present "severity" d.severity, .present "code" d.code,
      .present "source" d.source, .always "message" d.message])
    readAsRecord
    (fun _ => congrArg Json.object (by simp)) (fun _ => by simp)
    (.bind .field fun _ => .bind .optional fun _ => .bind .optional fun _ =>
      .bind .optional fun _ => .bind .field fun _ => .pure rfl)

instance : Faithful PublishDiagnosticsParams :=
  .ofRecord
    (fun p => [.always "uri" p.uri, .present "version" p.version,
      .always "diagnostics" p.diagnostics])
    readAsRecord
    (fun _ => congrArg Json.object (by simp)) (fun _ => by simp)
    (.bind .field fun _ => .bind .defaulted_none fun _ => .bind .field fun _ => .pure rfl)

instance : Faithful LogMessageParams :=
  .ofRecord (fun p => [.always "type" p.kind, .always "message" p.message]) readAsRecord
    (fun _ => rfl) (fun _ => by simp)
    (.bind .field fun _ => .bind .field fun _ => .pure rfl)

/-! ## What a server wants to be told -/

instance : Faithful SyncKind :=
  .ofNumbered (fun _ => rfl) (fun _ => rfl) (fun k => by cases k <;> decide)
    (fun k => by cases k <;> rfl)

theorem SaveOption.longForm : FaithfulForm (Json.readRecord reader "SaveOptions")
    fun includeText => .object (Json.present "includeText" includeText) :=
  .ofRecord (fun includeText => [.present "includeText" includeText]) readAsRecord
    (fun _ => congrArg Json.object (by simp)) (fun _ => by simp) .optional

instance : Faithful SaveOption :=
  .ofAlternatives "SaveOption" .enabled .options
    ⟨Faithful.toFaithfulForm (α := Bool), SaveOption.longForm⟩
    (fun v => by
      cases first : (ofJson v : Decoded Bool) <;>
        cases second : (Json.readRecord SaveOption.reader "SaveOptions" v) <;>
        simp only [ofJson] at first second ⊢ <;> simp only [first, second])
    ⟨fun _ => rfl, fun _ => rfl⟩ fun _ => ⟨_, rfl⟩

instance : Faithful SyncOptions :=
  .ofRecord
    (fun o => [.present "openClose" o.openClose, .present "change" o.change,
      .present "willSave" o.willSave, .present "willSaveWaitUntil" o.willSaveWaitUntil,
      .present "save" o.save])
    readAsRecord (fun _ => congrArg Json.object (by simp)) (fun _ => by simp)
    (.bind .optional fun _ => .bind .optional fun _ => .bind .optional fun _ =>
      .bind .optional fun _ => .bind .optional fun _ => .pure rfl)

instance : Faithful DocumentSyncOption :=
  .ofAlternatives "TextDocumentSync" .kind .options
    ⟨Faithful.toFaithfulForm (α := SyncKind), Faithful.toFaithfulForm (α := SyncOptions)⟩
    (fun v => by
      cases first : (ofJson v : Decoded SyncKind) <;>
        cases second : (ofJson v : Decoded SyncOptions) <;>
        simp only [ofJson] at first second ⊢ <;> simp only [first, second])
    ⟨fun _ => rfl, fun _ => rfl⟩ fun _ => ⟨_, rfl⟩

/-! ## Capabilities of a server -/

namespace ServerCapabilities

/-- The places of the members that have a type of their own. -/
def ownSlots (own : Option DocumentSyncOption × Option Json) : List Slot :=
  [.present "textDocumentSync" own.1, .present "documentFormattingProvider" own.2]

/-- The places of all members. -/
def slots (c : ServerCapabilities) : List Slot :=
  ownSlots (c.sync, c.formattingProvider) ++ c.other.map fun entry => ⟨entry.1, some entry.2⟩

/-- Reads the members that have a type of their own. -/
def ownReader : RecordReader (Option DocumentSyncOption × Option Json) := do
  let sync ← .optional "textDocumentSync"
  let formattingProvider ← .optional "documentFormattingProvider"
  return (sync, formattingProvider)

/-- Whether a member has no place of its own. -/
def isOther (entry : String × Json) : Bool :=
  !ownMembers.contains entry.1

theorem ownReader_rereads : ownReader.Rereads [] ownSlots :=
  .bind .optional fun _ => .bind .optional fun _ => .pure rfl

theorem decode_obj (members : List (String × Json)) :
    (ofJson (.obj members) : Decoded ServerCapabilities)
      = (ownReader.run (.named members)).map fun read =>
        ⟨read.1.1, read.1.2, members.filter isOther⟩ := by
  change Except.bind ((ownReader.run (.named members)).map _) _ = _
  cases ownReader.run (.named members) <;> rfl

theorem written_slots (c : ServerCapabilities) :
    written c.slots = written (ownSlots (c.sync, c.formattingProvider)) ++ c.other := by
  have others : written (c.other.map fun entry => ⟨entry.1, some entry.2⟩) = c.other := by
    rw [written, List.filterMap_map]
    exact List.filterMap_some
  rw [slots, written_append, others]

theorem encode (c : ServerCapabilities) : toJson c = .object (written c.slots) := by
  rw [written_slots]
  exact congrArg Json.object (by simp [ownSlots])

/-- What is known of capabilities that were read. -/
structure WellRead (c : ServerCapabilities) : Prop where
  others : ∀ entry ∈ c.other, isOther entry
  inOrder : Json.InOrder c.other
  held : ∀ slot ∈ c.slots, slot.Held
  again {members : List (String × Json)}
    (fills : Fills members (ownSlots (c.sync, c.formattingProvider))) :
    ownReader.run (.named members) = .ok ((c.sync, c.formattingProvider), .named members)

theorem wellRead_of_decode {v : Json} {c : ServerCapabilities} (held : v.Held)
    (read : ofJson v = .ok c) : c.WellRead := by
  cases v with
  | obj members =>
    obtain ⟨inOrder, values⟩ := Json.throughout_obj.mp held
    rw [decode_obj] at read
    cases run : ownReader.run (.named members) with
    | error e => rw [run] at read; cases read
    | ok result =>
      obtain ⟨own, s'⟩ := result
      rw [run] at read
      cases read
      have rest : (Members.named members).Held := fun v mem => by
        obtain ⟨entry, isMember, rfl⟩ := List.mem_map.mp mem
        exact values entry isMember
      obtain ⟨-, settles⟩ := ownReader_rereads _ _ _ rest (by simp) run
      refine ⟨fun entry mem => (List.mem_filter.mp mem).2, inOrder.filter _, ?_, settles.again⟩
      refine List.forall_mem_append.mpr ⟨settles.held, fun slot mem => ?_⟩
      obtain ⟨entry, isOther, rfl⟩ := List.mem_map.mp mem
      rintro v ⟨⟩
      exact values entry (List.mem_filter.mp isOther).1
  | _ => cases read

theorem isOther_iff {entry : String × Json} : isOther entry ↔ entry.1 ∉ ownMembers := by
  simp [isOther]

theorem WellRead.distinctSlots {c : ServerCapabilities} (well : c.WellRead) :
    DistinctSlots c.slots := by
  have own : (ownSlots (c.sync, c.formattingProvider)).map Slot.name = ownMembers := rfl
  have others : (c.other.map fun entry => Slot.mk entry.1 (some entry.2)).map Slot.name
      = c.other.map (·.1) := List.map_map
  rw [DistinctSlots, slots, List.map_append, own, others]
  refine List.nodup_append.mpr ⟨by decide, well.inOrder.distinctNames, ?_⟩
  rintro name inOwn _ mem rfl
  obtain ⟨entry, other, rfl⟩ := List.mem_map.mp mem
  exact isOther_iff.mp (well.others entry other) inOwn

/-- The members that have no place of their own are found again among all that are written. -/
theorem WellRead.others_kept {c : ServerCapabilities} (well : c.WellRead) :
    (Json.sortMembers (written c.slots)).filter isOther = c.other := by
  have own : (written (ownSlots (c.sync, c.formattingProvider))).filter isOther = [] :=
    List.filter_eq_nil_iff.mpr fun entry mem other =>
      isOther_iff.mp other (names_written_sublist.subset (List.mem_map_of_mem mem))
  have same : (written c.slots).filter isOther = c.other := by
    rw [written_slots, List.filter_append, own, List.filter_eq_self.mpr well.others,
      List.nil_append]
  have kept := (Json.sortMembers_perm well.distinctSlots.distinctNames).filter isOther
  rw [same] at kept
  exact kept.eq_of_pairwise (fun _ _ _ _ before after => absurd before (String.lt_asymm after))
    ((Json.inOrder_sortMembers _).filter _) well.inOrder

instance : Faithful ServerCapabilities where
  reads_back {_ c} held read := by
    have well := wellRead_of_decode held read
    have fills : Fills (Json.sortMembers (written c.slots)) c.slots :=
      (fills_written well.distinctSlots).sortMembers well.distinctSlots.distinctNames
    rw [encode, Json.object, decode_obj, well.again (fills.mono (List.subset_append_left _ _))]
    simp only [Except.map, well.others_kept]
  not_null _ _ := Json.noConfusion
  held {_ c} held read := by
    have well := wellRead_of_decode held read
    rw [encode]
    refine Json.held_object fun entry mem => ?_
    obtain ⟨slot, inSlots, same⟩ := List.mem_filterMap.mp mem
    obtain ⟨v, value, rfl⟩ := Option.map_eq_some_iff.mp same
    exact well.held slot inSlots v value

end ServerCapabilities

/-! ## The handshake -/

theorem FilesCapabilities.rereads : RecordReader.Rereads [] reader fun c =>
    [.present "xfilesProvider" c.listing, .present "xcontentProvider" c.contents] :=
  .bind .optional fun _ => .bind .optional fun _ => .pure rfl

instance : Faithful ClientCapabilities :=
  .ofRecord
    (fun c => [.present "workspace" c.workspace, .present "textDocument" c.textDocument,
      .present "window" c.window, .present "xfilesProvider" c.files.listing,
      .present "xcontentProvider" c.files.contents])
    readAsOpenRecord
    (fun _ => congrArg Json.object (by simp [FilesCapabilities.members]))
    (fun _ => by simp)
    (.bind .optional fun _ => .bind .optional fun _ => .bind .optional fun _ =>
      .bind FilesCapabilities.rereads fun _ => .pure rfl)

instance : Faithful ProgramInfo :=
  .ofRecord (fun i => [.always "name" i.name, .present "version" i.version]) readAsRecord
    (fun _ => congrArg Json.object (by simp)) (fun _ => by simp)
    (.bind .field fun _ => .bind .optional fun _ => .pure rfl)

instance : Faithful InitializeParams :=
  .ofRecord
    (fun p => [.always "processId" p.processId, .always "rootPath" p.rootPath,
      .always "rootUri" p.rootUri, .always "capabilities" p.capabilities,
      .present "clientInfo" p.clientInfo, .present "initializationOptions" p.initializationOptions,
      .present "trace" p.trace])
    readAsRecord
    (fun _ => congrArg Json.object (by simp)) (fun _ => by simp)
    (.bind .nullable fun _ => .bind .nullable fun _ => .bind .nullable fun _ =>
      .bind .field fun _ => .bind .optional fun _ => .bind .optional fun _ =>
      .bind .optional fun _ => .pure rfl)

instance : Faithful InitializeResult :=
  .ofRecord
    (fun r => [.always "capabilities" r.capabilities, .present "serverInfo" r.serverInfo])
    readAsRecord
    (fun _ => congrArg Json.object (by simp)) (fun _ => by simp)
    (.bind .field fun _ => .bind .optional fun _ => .pure rfl)

end LanguageClient
