import LanguageClient.Proofs.Host.Versions
import LanguageClient.Proofs.Session.FilesService
import LanguageClient.Proofs.Session.HostAgreement
import LanguageClient.Proofs.Session.Stamps
/-!
# Versions on the wire

The version of an open document is the one with which it was opened, and one more for each edit since
(`version_of_open`).  What a session tells of the text of a document, and what it hands out of an open
one, has the version that the document had at some moment (`stamped_after`, `content_cases`).

The number that stands for no version is one of those that a document may have, so it is told of an open
document exactly if its version is that number; nothing keeps a document from having it.
-/

namespace LanguageClient.Relay

variable {setup : Scene.Setup} {moves : List Move} {move : Move} {r r' : Relay} {d : Document}
  {uri : String} {was : Document → Prop} {made : Option Scene.Move} {events : List DocumentEvent}

/-! ## The open documents -/

/-- What a move makes of the document that is open under a URI. -/
def Move.leaves (uri : String) (document? : Option Document) : Move → Option Document
  | .opens d => if d.uri = uri then some d else document?
  | .edits edited text => if edited = uri then document?.map (Host.edited · text) else document?
  | .closes closed => if closed = uri then none else document?
  | .passOn | .other _ => document?

/-- A move edits the document under a URI. -/
def Move.isEditOf (uri : String) : Move → Bool
  | .edits edited _ => edited == uri
  | _ => false

theorem document?_step (moves : List Move) (move : Move) (uri : String) :
    ((machine setup).after (moves ++ [move])).scene.host.document? uri =
      move.leaves uri (((machine setup).after moves).scene.host.document? uri) := by
  rw [Machine.after_concat, step_machine]
  generalize last : (machine setup).after moves = r
  have covered : r.scene.session.sync.Covered := last ▸ covered_after moves
  -- documents are all that counts here
  have same : ∀ {h : Host}, h.documents = r.scene.host.documents →
      h.document? uri = r.scene.host.document? uri := fun same => by
    rw [Host.document?, same, Host.document?]
  cases move with
  | opens d => exact Host.document?_open r.scene.host d uri
  | edits edited text =>
    change (r.scene.step (.editDocument edited text)).host.document? uri = _
    cases edit : r.scene.host.edit edited text with
    -- an edit of a document that is not open comes to nothing
    | none =>
      have absent : r.scene.host.document? edited = none := by
        cases there : r.scene.host.document? edited with
        | none => rfl
        | some d => simp [Host.edit, there] at edit
      simp only [Scene.step, edit, Option.map_none, Option.getD_none, Move.leaves]
      split
      · rename_i about
        rw [← about, absent]
        rfl
      · rfl
    | some result =>
      obtain ⟨d, there, -, documents⟩ := Host.edit_cases edit
      simp only [Scene.step, edit, Option.map_some, Option.getD_some, Move.leaves, documents]
      split
      · rename_i about
        rw [← about, there]
        rfl
      · rfl
  | closes closed => exact Host.document?_close r.scene.host closed uri
  | passOn =>
    refine same ?_
    unfold step
    cases named : r.sceneMove? .passOn with
    | none => rfl
    | some made =>
      obtain ⟨-, e, -, rfl⟩ : r.isIdle = true ∧ ∃ e, r.queue.head? = some e ∧ .event e = made := by
        simpa [sceneMove?] using named
      rfl
  | other move =>
    refine same ?_
    unfold step
    cases named : r.sceneMove? (.other move) with
    | none => rfl
    | some made =>
      obtain ⟨apart, rfl⟩ : move.isApart = true ∧ move = made := by simpa [sceneMove?] using named
      exact step_documents covered apart

/-- **Versions are counted from the opening.**  An open document was opened by a move, and has since been
    edited as often as its version tells. -/
theorem version_of_open (there : ((machine setup).after moves).scene.host.document? uri = some d) :
    ∃ before first later, moves = before ++ .opens first :: later ∧ first.uri = uri ∧
      (∀ other, .opens other ∈ later → other.uri ≠ uri) ∧
      d.version = first.version + Int32.ofNat (later.countP (·.isEditOf uri)) := by
  induction moves using List.reverseRecOn generalizing d with
  | nil => cases there
  | append_singleton moves move ih =>
    rw [document?_step] at there
    -- the document was open before, and the move leaves it or edits it
    have further : ∀ {d₀ : Document}, ((machine setup).after moves).scene.host.document? uri = some d₀ →
        (∀ other, move = .opens other → other.uri ≠ uri) →
        d.version = d₀.version + Int32.ofNat (if move.isEditOf uri then 1 else 0) →
        ∃ before first later, moves ++ [move] = before ++ .opens first :: later ∧ first.uri = uri ∧
          (∀ other, .opens other ∈ later → other.uri ≠ uri) ∧
          d.version = first.version + Int32.ofNat (later.countP (·.isEditOf uri)) := by
      intro d₀ there₀ others version
      obtain ⟨before, first, later, split, named, kept, counted⟩ := ih there₀
      refine ⟨before, first, later ++ [move], by simp [split], named, fun other among => ?_, ?_⟩
      · rcases List.mem_append.mp among with among | among
        · exact kept other among
        · exact others other (List.mem_singleton.mp among).symm
      · rw [version, counted, List.countP_append, List.countP_singleton, Int32.ofNat_add, Int32.add_assoc]
    cases move with
    | opens first =>
      simp only [Move.leaves] at there
      split at there
      · rename_i about
        obtain rfl := Option.some.inj there
        exact ⟨moves, first, [], rfl, about, by simp, by simp⟩
      · rename_i about
        exact further there (fun other same => by cases same; exact about) (by simp [Move.isEditOf])
    | edits edited text =>
      simp only [Move.leaves] at there
      split at there
      · rename_i about
        obtain ⟨d₀, there₀, rfl⟩ := Option.map_eq_some_iff.mp there
        exact further there₀ (by simp) (by simp [Move.isEditOf, about, Host.edited])
      · rename_i about
        exact further there (by simp) (by simp [Move.isEditOf, about])
    | closes closed =>
      simp only [Move.leaves] at there
      split at there
      · cases there
      · exact further there (by simp) (by simp [Move.isEditOf])
    | passOn | other => exact further there (by simp) (by simp [Move.isEditOf])

theorem version_nonneg (opens : ∀ first, .opens first ∈ moves → 0 ≤ first.version)
    (bounded : (machine setup).Always moves Bounded)
    (there : ((machine setup).after moves).scene.host.document? uri = some d) : 0 ≤ d.version := by
  induction moves using List.reverseRecOn generalizing d with
  | nil => cases there
  | append_singleton moves move ih =>
    have earlier := (Machine.always_concat.mp bounded).1
    -- with the last move away, the hypothesis still holds
    have before : ∀ {d}, ((machine setup).after moves).scene.host.document? uri = some d → 0 ≤ d.version :=
      ih (fun first among => opens first (List.mem_append_left _ among)) earlier
    rw [document?_step] at there
    cases move with
    | opens first =>
      simp only [Move.leaves] at there
      split at there
      · obtain rfl := Option.some.inj there
        exact opens first (by simp)
      · exact before there
    | edits edited text =>
      simp only [Move.leaves] at there
      split at there
      -- an edit adds one, and the bound keeps the sum from turning over
      · obtain ⟨d₀, there₀, rfl⟩ := Option.map_eq_some_iff.mp there
        exact next_version_nonneg (before there₀) (earlier.now d₀ (List.mem_of_find?_eq_some there₀))
      · exact before there
    | closes closed =>
      simp only [Move.leaves] at there
      split at there
      · cases there
      · exact before there
    | passOn | other => exact before there

/-! ## What is told -/

/-- A document that the host had open at some moment. -/
def WasOpen (setup : Scene.Setup) (moves : List Move) (d : Document) : Prop :=
  (machine setup).Once moves fun r => r.scene.host.document? d.uri = some d

theorem wasOpen_of_mem (among : d ∈ ((machine setup).after moves).scene.host.documents) :
    WasOpen setup moves d := by
  refine Machine.Once.now (Host.document?_of_mem ?_ among)
  rw [scene_after]
  exact Scene.distinct_after _

/-- The events that a move gives out tell of documents as they are after it. -/
theorem emitted_stamped (moves : List Move) (move : Move) :
    ∀ e ∈ ((machine setup).after moves).emitted move, e.Stamped (WasOpen setup (moves ++ [move])) := by
  have after := @document?_step setup moves move
  intro e among
  cases move with
  | opens d =>
    obtain rfl := List.mem_singleton.mp among
    have now : WasOpen setup (moves ++ [.opens d]) d :=
      Machine.Once.now ((after d.uri).trans (if_pos rfl))
    exact now
  | edits uri text =>
    obtain ⟨⟨change, h'⟩, edit, rfl⟩ := Option.map_eq_some_iff.mp (Option.mem_toList.mp among)
    obtain ⟨d, there, rfl, -⟩ := Host.edit_cases edit
    obtain rfl := Host.uri_of_document? there
    refine ⟨Host.edited d text, Machine.Once.now ((after d.uri).trans ?_), rfl, rfl⟩
    simp [Move.leaves, there]
  | closes uri =>
    simp only [emitted] at among
    split at among
    · obtain rfl := List.mem_singleton.mp among
      trivial
    · cases among
  | passOn | other => cases among

theorem Effect.stamped (effect : Effect r made events r') (covered : r.scene.session.sync.Covered)
    (known : ∀ document ∈ r.scene.host.documents, was document) (given : ∀ e ∈ events, e.Stamped was)
    (stamped : r.scene.session.Stamped was) (queue : ∀ e ∈ r.queue, e.Stamped was) :
    r'.scene.session.Stamped was ∧ ∀ e ∈ r'.queue, e.Stamped was := by
  -- a task for an event is new only when the session is told of the event
  have stepped : ∀ made, (∀ e, made = .event e → e.Stamped was) →
      (r.scene.step made).session.Stamped was := by
    intro made asked
    refine (Scene.step_change covered made).stamped covered stamped known fun t e absent here' => ?_
    rcases event_at covered made here' with here | ⟨same, -⟩ | ⟨q, s₁, -, here, -⟩
    · cases absent.symm.trans here
    · exact asked e same
    · cases absent.symm.trans here
  cases effect with
  | stayed => exact ⟨stamped, queue⟩
  | edited made _ edit =>
    refine ⟨stepped made fun e same => ?_, fun e among => ?_⟩
    · subst same
      cases edit
    · rcases List.mem_append.mp among with among | among
      · exact queue e among
      · exact given e among
  | passed e rest idle first =>
    rw [first] at queue
    refine ⟨stepped _ fun e' same => ?_, fun e' among => queue e' (List.mem_cons_of_mem _ among)⟩
    cases same
    exact queue e List.mem_cons_self
  | moved made apart =>
    refine ⟨stepped made fun e same => ?_, queue⟩
    subst same
    cases e with
    | opened | changed => simp [Scene.Move.isApart, DocumentEvent.op?] at apart
    | _ => trivial

theorem stamped_after (moves : List Move) :
    ((machine setup).after moves).scene.session.Stamped (WasOpen setup moves) ∧
    ∀ e ∈ ((machine setup).after moves).queue, e.Stamped (WasOpen setup moves) := by
  refine (machine setup).run_induction (fun moves r => r.scene.session.Stamped (WasOpen setup moves) ∧
    ∀ e ∈ r.queue, e.Stamped (WasOpen setup moves)) ?_ ?_ moves
  · have silent : ∀ uri change, (machine setup).start.scene.session.sync.staged.get? uri ≠ some change :=
      fun uri change => by simp [machine, Scene.machine, Session.ofConfig, DocumentSync.new]
    exact ⟨⟨fun uri change there => absurd there (silent uri change),
      by simp [machine, Scene.machine, Session.ofConfig],
      by simp [machine, Scene.machine, Session.ofConfig, Session.connection]⟩, by simp [machine]⟩
  rintro moves move ⟨stamped, queue⟩
  have more : ∀ d, WasOpen setup moves d → WasOpen setup (moves ++ [move]) d := fun d was => was.append [move]
  exact (effect_after setup moves move).stamped (covered_after moves)
    (fun document among => more document (wasOpen_of_mem among)) (emitted_stamped moves move)
    (stamped.mono more) fun e among => (queue e among).mono more

/-! ## What is handed out -/

/-- What was so in the scene of a relay was so in the relay. -/
theorem once_of_path {p : Scene → Prop} (once : (Scene.machine setup).Once (path setup moves) p) :
    (machine setup).Once moves fun r => p r.scene := by
  induction moves using List.reverseRecOn with
  | nil => exact Machine.once_nil.mpr (Machine.once_nil.mp once)
  | append_singleton moves move ih =>
    have last := @scene_after setup (moves ++ [move])
    rw [path_concat] at once last
    cases made : ((machine setup).after moves).sceneMove? move with
    | none =>
      rw [made, Option.toList_none, List.append_nil] at once
      exact (ih once).append [move]
    | some made' =>
      rw [made, Option.toList_some] at once last
      rcases Machine.once_concat.mp once with earlier | now
      · exact (ih earlier).append [move]
      · refine Machine.Once.now ?_
        rw [last]
        exact now

/-- What a server gets when it asks for a content: an open document, or, when none is open under the URI,
    a file without a version. -/
theorem content_cases {c : Nat} {move : Scene.Move} {request : Request} {response : Response} {v : Json}
    (among : (request, response) ∈ ((machine setup).after moves).scene.replies c move)
    (asks : request.method = FileService.contentMethod) (result : response.result = some v) :
    ∃ uri, (∃ d, WasOpen setup moves d ∧ d.uri = uri ∧ v = toJson (TextDocumentItem.ofDocument d)) ∨
      ((machine setup).Once moves fun r => r.scene.host.document? uri = none) ∧ ∃ languageId text,
        v = toJson ({ uri, languageId, version := .unknown, text } : TextDocumentItem) := by
  rw [scene_after] at among
  obtain ⟨refused, answered⟩ := Scene.answered_as_offered (q := .content) among asks
  have flag : FilesQuestion.content.flag setup.options.files = some true := by
    by_contra unset
    simp [refused unset, Response.failure] at result
  obtain ⟨j, state, outcome, -, -, rfl, served⟩ := answered flag
  have looked : ∀ {p h} {q : (String → Option Document) → Prop},
      Scene.WentOn setup (path setup moves) c j p h → q h.document? →
      (machine setup).Once moves fun r => q r.scene.host.document? := by
    rintro p h q ⟨before, made, later, split, -, -, rfl⟩ found
    exact once_of_path (p := fun d => q d.host.document?) ⟨before, made :: later, split, found⟩
  -- two of the outcomes give a document: the host has it open, or it is read from the disk
  cases served with
  | idle | failed => simp [Connection.answerFor, Response.failure] at result
  | listed _ _ _ other => exact absurd (asks.symm.trans other) (by decide)
  | opened params h d _ _ went found =>
    obtain rfl : _ = v := by simpa [Connection.answerFor, Response.success] using result
    have named := Host.uri_of_document? found
    exact ⟨d.uri, Or.inl ⟨d, looked (q := fun find => find d.uri = some d) went (named ▸ found), rfl, rfl⟩⟩
  | disk params path h h' octets _ _ went absent =>
    obtain rfl : _ = v := by simpa [Connection.answerFor, Response.success] using result
    exact ⟨params.textDocument.uri, Or.inr
      ⟨looked (q := fun find => find params.textDocument.uri = none) went absent, _, _, rfl⟩⟩

/-! ## Versions -/

/-- **Versions of open documents.**  Whatever the editor does, and whatever turns the session and its
    server take:

    * an edit leads to the next version.  It is larger unless the document had the last version of all;
    * an open document has the version with which it was opened last, and one more for each edit since;
      with a file it is opened at version 1;
    * all that was told of openings and changes has the URI and the version of a document that was open
      at some moment, and all of it when it was opened;
    * a content that was handed out is an open document, as it was at some moment, or the document was not
      open at some moment, and what was read from its file has no version;
    * what is read of an open document, as it is written, has its version exactly if that is not negative,
      and the number that stands for no version is written exactly if it is the version of the document;
    * as long as nothing is opened with a negative version, and no version comes to the last one, no
      version of an open document is negative. -/
theorem versions_on_wire (setup : Scene.Setup) (moves : List Move) :
    let r := (machine setup).after moves
    (∀ uri text change h', r.scene.host.edit uri text = some (change, h') →
      ∃ d, r.scene.host.document? uri = some d ∧ h'.document? uri = some (Host.edited d text) ∧
        change.version = d.version + 1 ∧ (d.version < change.version ↔ d.version ≠ Int32.maxValue)) ∧
    (∀ uri d, r.scene.host.document? uri = some d → ∃ before first later,
      moves = before ++ .opens first :: later ∧ first.uri = uri ∧
      (∀ other, .opens other ∈ later → other.uri ≠ uri) ∧
      d.version = first.version + Int32.ofNat (later.countP (·.isEditOf uri))) ∧
    (∀ path d h', r.scene.host.openFile path = .ok (d, h') →
      d.version = 1 ∧ h' = r.scene.host.open d) ∧
    (∀ c n, .notification n ∈ (r.scene.session.connection c).sent →
      n.method = "textDocument/didOpen" ∨ n.method = "textDocument/didChange" →
      ∃ told : DocumentNotice, n = told.notification ∧ ∃ d, WasOpen setup moves d ∧
        told.uri = d.uri ∧ told.version = d.version ∧
        ∀ params, told = .opened params → params = ⟨.ofDocument d⟩) ∧
    (∀ c move request response v, (request, response) ∈ r.scene.replies c move →
      request.method = FileService.contentMethod → response.result = some v → ∃ uri,
      (∃ d, WasOpen setup moves d ∧ d.uri = uri ∧ v = toJson (TextDocumentItem.ofDocument d)) ∨
      ((machine setup).Once moves fun r => r.scene.host.document? uri = none) ∧ ∃ languageId text,
        v = toJson ({ uri, languageId, version := .unknown, text } : TextDocumentItem)) ∧
    (∀ d, (ofJson (toJson (TextDocumentItem.ofDocument d)) : Decoded TextDocumentItem) =
        .ok { TextDocumentItem.ofDocument d with version := .ofInt32 d.version } ∧
      (DocumentVersion.ofInt32 d.version = .known d.version ↔ 0 ≤ d.version) ∧
      ((toJson (TextDocumentItem.ofDocument d)).get? "version" = some (toJson DocumentVersion.unknown) ↔
        d.version = DocumentVersion.unknownNumber)) ∧
    ((∀ first, .opens first ∈ moves → 0 ≤ first.version) → (machine setup).Always moves Bounded →
      ∀ d, WasOpen setup moves d → 0 ≤ d.version) := by
  intro r
  refine ⟨?_, fun uri d there => version_of_open there, fun path d h' opened => Host.openFile_cases opened,
    ?_, fun c move request response v among asks result => content_cases among asks result,
    fun d => ⟨TextDocumentItem.read_ofDocument d, DocumentVersion.ofInt32_eq_known_iff,
      TextDocumentItem.written_unknown_iff d⟩, ?_⟩
  -- an edit: the next version is larger, but for the last of all
  · intro uri text change h' edit
    obtain ⟨d, there, rfl, documents⟩ := Host.edit_cases edit
    exact ⟨d, there, (documents uri).trans (if_pos rfl), rfl, lt_next_version_iff⟩
  -- on the wire: what a notice carries is the version of a document that was open
  · intro c n among about
    obtain ⟨told, ⟨d, was, rfl | ⟨changes, rfl⟩⟩, same⟩ := (stamped_after moves).1.sent c n among about
    · exact ⟨_, same, d, was, rfl, rfl, fun params told => (DocumentNotice.opened.inj told).symm⟩
    · exact ⟨_, same, d, was, rfl, rfl, by simp⟩
  · rintro opens bounded d ⟨before, later, rfl, there⟩
    refine version_nonneg (fun first among => opens first (List.mem_append_left _ among)) ?_ there
    exact fun earlier rest split => bounded earlier (rest ++ later) (by simp [split])

/-- A document is opened and edited before the start lists it, and the session tells of it. -/
theorem versions_on_wire_listedBeforeEvents :
    let d : Document := ⟨"file:///a.rs", "rust", 2, "fn main"⟩
    let n := (DocumentNotice.opened ⟨.ofDocument d⟩).notification
    let r := (machine Scene.wholeTexts).after listedBeforeEvents
    (∀ first, .opens first ∈ listedBeforeEvents → 0 ≤ first.version) ∧
    (machine Scene.wholeTexts).Always listedBeforeEvents Bounded ∧
    (∀ d, WasOpen Scene.wholeTexts listedBeforeEvents d → 0 ≤ d.version) ∧
    .notification n ∈ (r.scene.session.connection 0).sent ∧
    ∃ told : DocumentNotice, n = told.notification ∧
      ∃ d, WasOpen Scene.wholeTexts listedBeforeEvents d ∧ told.version = d.version := by
  intro d n r
  have opens : ∀ first, .opens first ∈ listedBeforeEvents → 0 ≤ first.version := by
    intro first among
    obtain rfl : first = ⟨"file:///a.rs", "rust", 1, "fn"⟩ := by
      simpa [listedBeforeEvents, Scene.steps, -List.map_take, -List.map_drop] using among
    decide
  have bounded : (machine Scene.wholeTexts).Always listedBeforeEvents Bounded :=
    Machine.always_iff.mpr (by decide +kernel)
  have sent : .notification n ∈ (r.scene.session.connection 0).sent := by decide +kernel
  obtain ⟨-, -, -, told, -, -, nonneg⟩ := versions_on_wire Scene.wholeTexts listedBeforeEvents
  obtain ⟨notice, same, d', was, -, version, -⟩ := told 0 n sent (Or.inl rfl)
  exact ⟨opens, bounded, nonneg opens bounded, sent, notice, same, d', was, version⟩

/-- A document that is opened with the version −1 is told of with that number, which is read as no
    version, and an edit of a document that has the last version leads to a smaller one. -/
theorem open_document_unversioned :
    let d : Document := ⟨"file:///a.rs", "rust", -1, "fn"⟩
    let r := (machine Scene.wholeTexts).after (.opens d :: Scene.began.map .other)
    r.scene.host.document? d.uri = some d ∧
    .notification (DocumentNotice.opened ⟨.ofDocument d⟩).notification ∈
      (r.scene.session.connection 0).sent ∧
    (ofJson (toJson (TextDocumentItem.ofDocument d)) : Decoded TextDocumentItem) =
      .ok { TextDocumentItem.ofDocument d with version := .unknown } ∧
    ((r.scene.host.open { d with version := Int32.maxValue }).edit d.uri "fn main").map (·.1.version) =
      some Int32.minValue := by
  decide +kernel

end LanguageClient.Relay
