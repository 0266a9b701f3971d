import LanguageClient.Proofs.Session.Offering
import LanguageClient.Proofs.Session.Registering
import LanguageClient.Proofs.Session.Window
/-!
# Files are served as offered

A server may ask for the files of the workspace and for contents.  Whether it may is decided in four
places: the flags of a session are written in its offer, they decide which requests get a job, the
handler of such a job looks at the state of the session when it begins, and only then asks the host.

`Served` says what a handler of a question about files may come to: an error, or what it has found in
the host.  `accounted_after` follows each question from the beginning of its handler to its response.
-/

namespace LanguageClient

/-! ## Questions about files -/

/-- What a server may ask about files. -/
inductive FilesQuestion where
  | listing
  | content
  deriving DecidableEq

namespace FilesQuestion

def method : FilesQuestion → String
  | listing => FileService.listMethod
  | content => FileService.contentMethod

def flag (files : FilesCapabilities) : FilesQuestion → Option Bool
  | listing => files.listing
  | content => files.contents

/-- The member in which the flag is offered, among those of the client's capabilities. -/
def member : FilesQuestion → String
  | listing => "xfilesProvider"
  | content => "xcontentProvider"

/-- What the parameters of a request say of the flag. -/
def offeredIn (q : FilesQuestion) (r : Request) : Option Json :=
  (r.params.bind (·.get? "capabilities")).bind (·.get? q.member)

variable {files : FilesCapabilities}

theorem asksForFiles_iff {r : Request} : r.AsksForFiles ↔ ∃ q : FilesQuestion, r.method = q.method :=
  ⟨fun asks => asks.elim (fun named => ⟨listing, named⟩) fun named => ⟨content, named⟩,
    fun ⟨q, named⟩ => by cases q <;> simp_all [Request.AsksForFiles, method]⟩

/-- A session handles a question exactly if the flag for it is set. -/
theorem method_mem_requestMethods (q : FilesQuestion) :
    q.method ∈ Session.requestMethods files ↔ q.flag files = some true := by
  rcases files with ⟨listing, contents⟩
  cases q <;> simp [Session.requestMethods, method, flag, FileService.listMethod,
    FileService.contentMethod, FilesCapabilities.servesListing, FilesCapabilities.servesContents]

theorem get?_capabilities (p : InitializeParams) :
    (toJson p).get? "capabilities" = some (toJson p.capabilities) := by
  rcases p with ⟨processId, rootPath, rootUri, capabilities, clientInfo, options, trace⟩
  cases clientInfo <;> cases options <;> cases trace <;> rfl

/-- An offer says of the flag what it is. -/
theorem offeredIn_offer (q : FilesQuestion) (options : SessionOptions) (root : String) (id n : Nat) :
    q.offeredIn (options.offer root id n) = (q.flag options.files).map Json.bool := by
  have flags : (toJson (ClientCapabilities.standard options.files)).get? q.member =
      (q.flag options.files).map Json.bool := by
    rcases options.files with ⟨listing, contents⟩
    cases q <;> cases listing <;> cases contents <;> rfl
  simp [offeredIn, SessionOptions.offer, get?_capabilities, InitializeParams.standard, flags]

end FilesQuestion

namespace Handling

/-- The job for a request waits for its handler to begin. -/
def isFresh : Handling → Bool
  | ⟨some (_, .running), none⟩ => true
  | _ => false

end Handling

namespace Scene

variable {setup : Setup} {moves : List Move} {d : Scene} {c j : Nat} {r : Request}

/-! ## What a handler finds -/

/-- The state in which a handler finds the session when it begins with a move. -/
def finds (c j : Nat) (d : Scene) (move : Move) : List SessionState :=
  if (d.session.handling c j).isFresh ∧ ¬ ((d.step move).session.handling c j).isFresh then
    [d.session.state]
  else []

/-- The states in which the handler of a job has found the session when it began: there is one at most,
    and one as soon as it has begun. -/
def beginnings (setup : Setup) (c j : Nat) (moves : List Move) : List SessionState :=
  (machine setup).recorded (finds c j) moves

/-- A handler that has waited for something has gone on in a host: it took a step itself, or the work on
    files that it waited for was done. -/
def WentOn (setup : Setup) (moves : List Move) (c j : Nat) (p : HandlerPhase) (h : Host) : Prop :=
  ∃ before move later, moves = before ++ move :: later ∧
    (move = .act (.handler c j) ∨ move = .finishFiles c j) ∧
    ((machine setup).after before).session.handlers.get? (c, j) = some p ∧
    ((machine setup).after before).host = h

theorem WentOn.concat {p : HandlerPhase} {h : Host} (went : WentOn setup moves c j p h) (move : Move) :
    WentOn setup (moves ++ [move]) c j p h := by
  obtain ⟨before, made, later, rfl, rest⟩ := went
  exact ⟨before, made, later ++ [move], by simp, rest⟩

/-- What the handler of a question about files waits for, by when. -/
inductive Awaits (setup : Setup) (moves : List Move) (c j : Nat) (r : Request) : HandlerPhase → Prop where
  | listing (base : String) (asks : r.method = FileService.listMethod) :
      Awaits setup moves c j r (.listing base)
  | looking (params : ContentParams) (asks : r.method = FileService.contentMethod)
      (read : (Session.readParams r.params : Except ClientError ContentParams) = .ok params) :
      Awaits setup moves c j r (.looking params.textDocument.uri)
  | reading (params : ContentParams) (path : String) (h : Host)
      (asks : r.method = FileService.contentMethod)
      (read : (Session.readParams r.params : Except ClientError ContentParams) = .ok params)
      (looked : WentOn setup moves c j (.looking params.textDocument.uri) h)
      (absent : h.document? params.textDocument.uri = none)
      (place : Uri.toPath? params.textDocument.uri = some path) :
      Awaits setup moves c j r (.reading params.textDocument.uri path)

/-- What a question about files comes to, by the state in which its handler finds the session. -/
inductive Served (setup : Setup) (moves : List Move) (c j : Nat) (r : Request) :
    SessionState → HandlerOutcome → Prop where
  /-- The session does not run. -/
  | idle (state : SessionState) (idle : state ≠ .running) :
      Served setup moves c j r state (.failed (.invalidState setup.server.name state.text))
  | failed (e : ClientError) : Served setup moves c j r .running (.failed e)
  | listed (base : String) (paths : List String) (h : Host) (asks : r.method = FileService.listMethod)
      (listed : WentOn setup moves c j (.listing base) h)
      (found : h.listFiles base (fun _ => false) = .ok paths) :
      Served setup moves c j r .running (.value (toJson (FileService.listing paths)))
  /-- The document is open when the handler looks for it. -/
  | opened (params : ContentParams) (h : Host) (document : Document)
      (asks : r.method = FileService.contentMethod)
      (read : (Session.readParams r.params : Except ClientError ContentParams) = .ok params)
      (looked : WentOn setup moves c j (.looking params.textDocument.uri) h)
      (found : h.document? params.textDocument.uri = some document) :
      Served setup moves c j r .running (.value (toJson (TextDocumentItem.ofDocument document)))
  /-- The document is not open when the handler looks for it, so its file is read. -/
  | disk (params : ContentParams) (path : String) (h h' : Host) (octets : List UInt8)
      (asks : r.method = FileService.contentMethod)
      (read : (Session.readParams r.params : Except ClientError ContentParams) = .ok params)
      (looked : WentOn setup moves c j (.looking params.textDocument.uri) h)
      (absent : h.document? params.textDocument.uri = none)
      (place : Uri.toPath? params.textDocument.uri = some path)
      (opened : WentOn setup moves c j (.reading params.textDocument.uri path) h')
      (found : h'.tree.read path = .ok octets) :
      Served setup moves c j r .running (.value (toJson
        ({ uri := params.textDocument.uri
           languageId := languageOfPath path
           version := .unknown
           text := Utf8.lossyString octets } : TextDocumentItem)))

theorem Awaits.concat {p : HandlerPhase} (awaits : Awaits setup moves c j r p) (move : Move) :
    Awaits setup (moves ++ [move]) c j r p := by
  cases awaits with
  | listing base asks => exact .listing base asks
  | looking params asks read => exact .looking params asks read
  | reading params path h asks read looked absent place =>
    exact .reading params path h asks read (looked.concat move) absent place

theorem Served.concat {state : SessionState} {outcome : HandlerOutcome}
    (served : Served setup moves c j r state outcome) (move : Move) :
    Served setup (moves ++ [move]) c j r state outcome := by
  cases served with
  | idle _ idle => exact .idle state idle
  | failed e => exact .failed e
  | listed base paths h asks listed found => exact .listed base paths h asks (listed.concat move) found
  | opened params h document asks read looked found =>
    exact .opened params h document asks read (looked.concat move) found
  | disk params path h h' octets asks read looked absent place opened found =>
    exact .disk params path h h' octets asks read (looked.concat move) absent place
      (opened.concat move) found

/-! ## Along a run -/

/-- How a session has come to where it stands with a question about files. -/
def Accounted (setup : Setup) (moves : List Move) (c j : Nat) : Handling → Prop
  | ⟨some (r, .running), some p⟩ => r.AsksForFiles →
    beginnings setup c j moves = [.running] ∧ Awaits setup moves c j r p
  | ⟨some (r, .returned outcome), _⟩ => r.AsksForFiles →
    ∃ state, beginnings setup c j moves = [state] ∧ Served setup moves c j r state outcome
  | ⟨some (r, .answering response), _⟩ => r.AsksForFiles → ∃ state outcome,
    beginnings setup c j moves = [state] ∧ response = Connection.answerFor r outcome ∧
      Served setup moves c j r state outcome
  | ⟨some (_, .ended), _⟩ => True
  | _ => beginnings setup c j moves = []

/-- With a move that changes nothing about a question, its account stays as it is. -/
theorem Accounted.concat {x : Handling} {move : Move} (accounted : Accounted setup moves c j x)
    (same : beginnings setup c j (moves ++ [move]) = beginnings setup c j moves) :
    Accounted setup (moves ++ [move]) c j x := by
  unfold Accounted at accounted ⊢
  rw [same]
  split at accounted
  · exact fun asks => (accounted asks).imp_right (·.concat move)
  · intro asks
    obtain ⟨state, found, served⟩ := accounted asks
    exact ⟨state, found, served.concat move⟩
  · intro asks
    obtain ⟨state, outcome, found, answer, served⟩ := accounted asks
    exact ⟨state, outcome, found, answer, served.concat move⟩
  · trivial
  · exact accounted

/-- What somebody does who takes a turn of a job. -/
theorem jobTurns_cases {move : Move} {w : Option HandlerPhase} {turn : JobTurn}
    (turns : d.jobTurns move c j r w turn) :
    (w = none ∧ turn = .advances ∧ move = .act (.job c j)) ∨
    (w = none ∧ Session.Begins d.host d.session r turn ∧ move = .act (.handler c j)) ∨
    ∃ p, w = some p ∧ ((Session.GoesOn d.host p turn ∧ move = .act (.handler c j)) ∨
      Session.Gets d.host p turn ∧ move = .finishFiles c j) := by
  cases move with
  | act actor =>
    cases actor with
    | job c' j' =>
      cases w with
      | none =>
        obtain ⟨⟨rfl, rfl⟩, rfl⟩ := turns
        exact Or.inl ⟨rfl, rfl, rfl⟩
      | some p => exact turns.elim
    | handler c' j' =>
      cases w with
      | none =>
        obtain ⟨⟨rfl, rfl⟩, begins⟩ := turns
        exact Or.inr (Or.inl ⟨rfl, begins, rfl⟩)
      | some p =>
        obtain ⟨⟨rfl, rfl⟩, goes⟩ := turns
        exact Or.inr (Or.inr ⟨p, rfl, Or.inl ⟨goes, rfl⟩⟩)
    | _ => exact turns.elim
  | finishFiles c' j' =>
    obtain ⟨⟨rfl, rfl⟩, p, rfl, gets⟩ := turns
    exact Or.inr (Or.inr ⟨p, rfl, Or.inr ⟨gets, rfl⟩⟩)
  | _ => exact turns.elim

/-- A handler that begins waits for what the question is about. -/
theorem awaits_of_begins {p : HandlerPhase} {h : Host} {s : Session} (asks : r.AsksForFiles)
    (begins : Session.Begins h s r (.waits p)) : s.state = .running ∧ Awaits setup moves c j r p := by
  cases begins with
  | listing base named running => exact ⟨running, .listing base named⟩
  | looking params named running read => exact ⟨running, .looking params named read⟩
  | waiting _ other => exact absurd asks other

/-- A handler that ends as it begins has failed. -/
theorem served_of_begins {outcome : HandlerOutcome} {h : Host} {s : Session} (asks : r.AsksForFiles)
    (named : s.name = setup.server.name) (begins : Session.Begins h s r (.ends outcome)) :
    Served setup moves c j r s.state outcome := by
  cases begins with
  | idle _ idle =>
    rw [Session.invalidState, named]
    exact .idle s.state idle
  | failed e running =>
    rw [running asks]
    exact .failed e
  | answered v other => exact absurd asks other

/-- The handler of a job goes on with a move, in the host that the scene has. -/
theorem wentOn_last {move : Move} {p : HandlerPhase} {h : Host}
    (waits : ((machine setup).after moves).session.handlers.get? (c, j) = some p)
    (host : ((machine setup).after moves).host = h)
    (mover : move = .act (.handler c j) ∨ move = .finishFiles c j) :
    WentOn setup (moves ++ [move]) c j p h :=
  ⟨moves, move, [], rfl, mover, waits, host⟩

/-- A handler goes on to wait for a file when it has looked for a document in vain. -/
theorem Awaits.of_goesOn {move : Move} {p p' : HandlerPhase} {h : Host}
    (awaits : Awaits setup moves c j r p) (went : WentOn setup (moves ++ [move]) c j p h)
    (goes : Session.GoesOn h p (.waits p')) : Awaits setup (moves ++ [move]) c j r p' := by
  cases goes with
  | closed uri path absent place =>
    cases awaits with
    | looking params named read => exact .reading params path h named read went absent place

/-- A handler that ends has looked for a document and found it, or has failed. -/
theorem Awaits.served_of_goesOn {move : Move} {p : HandlerPhase} {h : Host} {outcome : HandlerOutcome}
    (awaits : Awaits setup moves c j r p) (went : WentOn setup (moves ++ [move]) c j p h)
    (goes : Session.GoesOn h p (.ends outcome)) :
    Served setup (moves ++ [move]) c j r .running outcome := by
  cases goes with
  | done _ v other => cases awaits <;> exact absurd trivial other
  | failed _ e => exact .failed e
  | opened uri document found =>
    cases awaits with
    | looking params named read => exact .opened params h document named read went found

/-- Work on files is done. -/
theorem Awaits.served_of_gets {move : Move} {p : HandlerPhase} {h : Host} {outcome : HandlerOutcome}
    (awaits : Awaits setup moves c j r p) (went : WentOn setup (moves ++ [move]) c j p h)
    (gets : Session.Gets h p (.ends outcome)) :
    Served setup (moves ++ [move]) c j r .running outcome := by
  cases gets with
  | failed _ e => exact .failed e
  | listed base paths found =>
    cases awaits with
    | listing _ named => exact .listed base paths h named went found
  | read uri path text found =>
    cases awaits with
    | reading params _ h₀ named read looked absent place =>
      obtain ⟨octets, contents, rfl⟩ : ∃ octets, h.tree.read path = .ok octets ∧
          Utf8.lossyString octets = text := by
        unfold Host.fileText at found
        cases contents : h.tree.read path with
        | ok octets => exact ⟨octets, rfl, by simpa [contents, Except.map, Except.mapError] using found⟩
        | error e => simp [contents, Except.map, Except.mapError] at found
      exact .disk params path h₀ h octets named read (looked.concat move) absent place went contents

/-- Every question about files is answered from what its handler has found. -/
theorem accounted_after (c j : Nat) (moves : List Move) :
    Accounted setup moves c j (((machine setup).after moves).session.handling c j) := by
  refine (machine setup).run_induction (fun moves d =>
    Accounted setup moves c j (d.session.handling c j)) ?_ ?_ moves
  · rfl
  · intro moves move accounted
    -- what has begun is counted by the jobs that ran for the first time
    have found : beginnings setup c j (moves ++ [move]) =
        beginnings setup c j moves ++ finds c j ((machine setup).after moves) move :=
      Machine.recorded_concat ..
    have attended : ((machine setup).after moves).session.Attended setup.options.files :=
      (accounts_after moves).1
    have turn := (step_turns (covered_after moves) (worksBy_after moves).files attended move).handling c j
    have named := (@worksBy_after setup moves).name
    rw [Machine.after_concat, step_machine]
    -- the place of the job before and after the move is all that matters from here
    generalize here : ((machine setup).after moves).session.handling c j = x at accounted turn
    generalize here' : (((machine setup).after moves).step move).session.handling c j = x' at turn
    simp only [finds, here, here'] at found
    have waits : x.handler = ((machine setup).after moves).session.handlers.get? (c, j) := by
      rw [← here]; rfl
    generalize List.filterMap _ _ = changes at turn
    cases turn with
    | stayed => exact accounted.concat (by simp [found])
    | arrived r => exact found.trans (by simpa [Handling.isFresh, Accounted] using accounted)
    | begun r comes => exact found.trans (by simpa [Handling.isFresh, Accounted] using accounted)
    | parked r w p comes same =>
      intro asks
      rcases jobTurns_cases comes with ⟨-, other, -⟩ | ⟨rfl, begins, -⟩ | ⟨q, rfl, goes⟩
      · simp at other
      -- the handler begins, so that its beginning is the one counted
      · obtain ⟨running, awaits⟩ := awaits_of_begins asks begins
        exact ⟨found.trans (by simpa [Handling.isFresh, Accounted, running] using accounted), awaits⟩
      -- it had begun, and goes on with what it has found
      · obtain ⟨running, awaits⟩ := accounted asks
        refine ⟨found.trans (by simpa [Handling.isFresh] using running), ?_⟩
        rcases goes with ⟨goes, mover⟩ | ⟨gets, -⟩
        · exact awaits.of_goesOn (wentOn_last waits.symm rfl (Or.inl mover)) goes
        · cases gets
    | finished r w outcome comes =>
      intro asks
      rcases jobTurns_cases comes with ⟨-, other, -⟩ | ⟨rfl, begins, -⟩ | ⟨q, rfl, goes⟩
      · simp at other
      · exact ⟨_, found.trans (by simpa [Handling.isFresh, Accounted] using accounted),
          served_of_begins asks named begins⟩
      · obtain ⟨running, awaits⟩ := accounted asks
        refine ⟨.running, found.trans (by simpa [Handling.isFresh] using running), ?_⟩
        rcases goes with ⟨goes, mover⟩ | ⟨gets, mover⟩
        · exact awaits.served_of_goesOn (wentOn_last waits.symm rfl (Or.inl mover)) goes
        · exact awaits.served_of_gets (wentOn_last waits.symm rfl (Or.inr mover)) gets
    | answered r p p' comes next past =>
      have kept : beginnings setup c j (moves ++ [move]) = beginnings setup c j moves := by
        cases next <;> simp_all [Handling.isFresh]
      cases next with
      | begun => exact absurd rfl past
      | returned outcome =>
        intro asks
        -- the handler has ended: what it found decides the answer
        obtain ⟨state, began, served⟩ := accounted asks
        exact ⟨state, outcome, kept.trans began, rfl, served.concat move⟩
      | answered response => trivial

/-! ## Answers -/

/-- Who answers a request: the read loop, which refuses it, or its job. -/
theorem mem_replies {move : Move} {response : Response} (among : (r, response) ∈ d.replies c move) :
    (d.session.connection c).canWrite = true ∧
    ((d.session.connection c).readPhase = .refusing r ∧ response = .failure r.id (.methodNotFound r.method) ∨
      ∃ j, move = .act (.job c j) ∧ (d.session.connection c).posts[j]? = some (r, .answering response)) := by
  cases move with
  | act actor =>
    cases actor with
    | reader c' =>
      simp only [replies, Session.replies] at among
      split at among
      · rename_i same
        subst same
        unfold Connection.refusal? at among
        split at among <;> try simp at among
        rename_i r' place
        obtain ⟨ready, rfl, rfl⟩ := among
        exact ⟨(Bool.and_eq_true_iff.mp ready).1, Or.inl ⟨place, rfl⟩⟩
      · simp at among
    | job c' j =>
      simp only [replies, Session.replies] at among
      split at among
      · rename_i same
        subst same
        unfold Connection.reply? at among
        split at among <;> try simp at among
        rename_i r' response' there
        obtain ⟨ready, rfl, rfl⟩ := among
        exact ⟨(Bool.and_eq_true_iff.mp ready).1, Or.inr ⟨j, rfl, there⟩⟩
      · simp at among
    | _ => simp [replies, Session.replies] at among
  | _ => simp [replies] at among

/-- A connection that answers is one of those that were opened. -/
theorem inside_of_mem_replies {move : Move} {response : Response}
    (among : (r, response) ∈ d.replies c move) : c < d.session.connections.length := by
  rcases mem_replies among with ⟨-, ⟨place, -⟩ | ⟨j, -, there⟩⟩
  · by_contra outside
    simp [Session.connection, List.getElem?_eq_none (Nat.le_of_not_lt outside)] at place
  · exact Session.inside_of_posts there

/-- A handler has found the session in a state that it was in once. -/
theorem once_of_mem_beginnings {state : SessionState} (among : state ∈ beginnings setup c j moves) :
    (machine setup).Once moves fun d => d.session.state = state := by
  induction moves using List.reverseRecOn with
  | nil => simp [beginnings] at among
  | append_singleton moves move ih =>
    rw [beginnings, Machine.recorded_concat, List.mem_append] at among
    rcases among with before | now
    · exact (ih before).append [move]
    · refine Machine.Once.append (Machine.Once.now ?_) [move]
      simp only [finds] at now
      split at now
      · exact (List.mem_singleton.mp now).symm
      · simp at now

/-- A session that can write on a connection, and has run once, has made its offer there. -/
theorem offered_of_once_running (once : (machine setup).Once moves fun d => d.session.state = .running)
    (inside : c < ((machine setup).after moves).session.connections.length)
    (can : (((machine setup).after moves).session.connection c).canWrite = true) :
    ((machine setup).after moves).session.Offered setup.options c := by
  obtain ⟨before, later, rfl, running⟩ := once
  obtain ⟨t, c', kind, ran⟩ := (quiet_or_ranOn before).resolve_left fun quiet => quiet.idle running
  have ran : RanOn setup (before ++ later) t c' kind := ran.append later
  obtain rfl := ran.alone c inside can
  exact ran.offered

/-! ## Without the host -/

/-- A move neither asks the host for anything nor tells it anything. -/
def WithoutHost (d : Scene) (move : Move) : Prop :=
  ∀ h, step { d with host := h } move = { d.step move with host := h }

/-- The read loop goes on by itself when it runs no handler. -/
theorem step_reader (inside : c < d.session.connections.length)
    (unlike : ∀ n, (d.session.connection c).readPhase ≠ .handling n) (h : Host) :
    d.session.step d.now h (.reader c) =
      (d.session.connection c).stepRead.map fun connection => (h, d.session.setConnection c connection) := by
  simp only [Session.step, inside, if_true, Session.stepReader]

theorem withoutHost_reader (inside : c < d.session.connections.length)
    (unlike : ∀ n, (d.session.connection c).readPhase ≠ .handling n) :
    d.WithoutHost (.act (.reader c)) := by
  intro h
  simp only [step, step_reader inside unlike]
  cases (d.session.connection c).stepRead <;> rfl

theorem withoutHost_job (d : Scene) (c j : Nat) : d.WithoutHost (.act (.job c j)) := by
  intro h
  simp only [step, Session.step]
  cases (d.session.connection c).stepJob j <;> rfl

/-- The handler of a question about files fails at once when the session does not run. -/
theorem beginHandler_idle {h : Host} {s : Session} (asks : r.AsksForFiles) (idle : s.state ≠ .running) :
    s.beginHandler h c j r = (h, s.finishHandler c j (.failed s.invalidState)) := by
  rcases asks with named | named <;>
    simp [Session.beginHandler, named, FileService.listMethod, FileService.contentMethod,
      Session.beginListing, Session.beginContent, idle]

/-- The handler of a question about files comes to an error when the session does not run, and does not
    need the host for that. -/
theorem step_handler_idle (fresh : d.session.handling c j = ⟨some (r, .running), none⟩)
    (asks : r.AsksForFiles) (idle : d.session.state ≠ .running) :
    d.WithoutHost (.act (.handler c j)) ∧
    (d.step (.act (.handler c j))).session.handling c j =
      ⟨some (r, .returned (.failed d.session.invalidState)), none⟩ := by
  obtain ⟨there, waits⟩ := Handling.mk.inj fresh
  obtain ⟨job, here, same⟩ := Option.map_eq_some_iff.mp ((List.getElem?_map ..).symm.trans there)
  obtain ⟨rfl, place⟩ := Prod.mk.inj same
  have stepped : ∀ h, d.session.step d.now h (.handler c j) =
      some (h, d.session.finishHandler c j (.failed d.session.invalidState)) := by
    intro h
    simp [Session.step, Session.stepHandler, here, place, waits, beginHandler_idle asks idle]
  refine ⟨fun h => by simp [step, stepped, touch], ?_⟩
  have posted : (d.session.connection c).Posted [] j (.returned (.failed d.session.invalidState)) _ :=
    Connection.finishJob_posted there (.failed d.session.invalidState)
  refine Session.handling_eq ?_ ?_
  · have result : ((d.step (.act (.handler c j))).session.connection c) =
        (d.session.connection c).finishJob j (.failed d.session.invalidState) := by
      rw [step, stepped]
      exact Session.connection_setConnection_self (Session.inside_of_posts there)
    rw [result, posted.posts, List.getElem?_modify, there]
    simp
  · simp [step, stepped, touch, Session.finishHandler, Session.onConnection, Session.setConnection,
      Table.get?_erase]

/-! ## In time -/

/-- Whenever a move is made in a stretch of a run, it changes nothing. -/
def InVain (setup : Setup) (before between : List Move) (move : Move) : Prop :=
  ∀ first rest, between = first ++ move :: rest →
    (machine setup).after (before ++ first ++ [move]) = (machine setup).after (before ++ first)

theorem InVain.of_concat {between : List Move} {move last : Move}
    (vain : InVain setup moves (between ++ [last]) move) : InVain setup moves between move :=
  fun first rest split => vain first (rest ++ [last]) (by simp [split])

/-- A request that the read loop passes on stays where it is until the read loop goes on. -/
theorem passing_kept {p : ReadPhase}
    (passes : (((machine setup).after moves).session.connection c).passing? = some p) (more : List Move)
    (vain : InVain setup moves more (.act (.reader c))) :
    (((machine setup).after (moves ++ more)).session.connection c).passing? = some p := by
  induction more using List.reverseRecOn with
  | nil => simpa using passes
  | append_singleton more move ih =>
    by_cases own : move = .act (.reader c)
    · have same := vain more [] (by rw [own])
      rw [← own] at same
      rw [← List.append_assoc, same]
      exact ih vain.of_concat
    have attended : ((machine setup).after (moves ++ more)).session.Attended setup.options.files :=
      (accounts_after _).1
    have turns := step_turns (covered_after (moves ++ more)) (worksBy_after _).files attended move
    have other : ¬ readsBy move c := by
      intro reads
      refine own ?_
      cases move with
      | act actor => exact congrArg Move.act reads
      | _ => exact reads.elim
    rw [← List.append_assoc, Machine.after_concat, step_machine]
    exact (turns.passing c p (ih vain.of_concat)).resolve_left other

/-- A job whose handler has ended stays where it is until it goes on. -/
theorem post_kept {p : JobPhase} (past : p ≠ .spawned ∧ p ≠ .running)
    (there : (((machine setup).after moves).session.connection c).posts[j]? = some (r, p))
    (more : List Move) (vain : InVain setup moves more (.act (.job c j))) :
    (((machine setup).after (moves ++ more)).session.connection c).posts[j]? = some (r, p) := by
  induction more using List.reverseRecOn with
  | nil => simpa using there
  | append_singleton more move ih =>
    have before := ih vain.of_concat
    -- a turn of the job itself would be in vain, and does nothing
    by_cases own : move = .act (.job c j)
    · have same := vain more [] (by rw [own])
      rw [← own] at same
      rw [← List.append_assoc, same]
      exact before
    have attended : ((machine setup).after (moves ++ more)).session.Attended setup.options.files :=
      (accounts_after _).1
    have turn := (step_turns (covered_after (moves ++ more)) (worksBy_after _).files attended
      move).handling c j
    obtain ⟨w, waits⟩ : ∃ w, ((machine setup).after (moves ++ more)).session.handlers.get? (c, j) = w :=
      ⟨_, rfl⟩
    rw [Session.handling_eq before waits] at turn
    rw [← List.append_assoc, Machine.after_concat, step_machine]
    generalize after' : (((machine setup).after (moves ++ more)).step move).session.handling c j = x' at turn
    have there' : ((((machine setup).after (moves ++ more)).step move).session.connection c).posts[j]? =
        x'.job := congrArg Handling.job after'
    rw [there']
    generalize List.filterMap _ _ = changes at turn
    cases turn with
    | stayed => rfl
    | answered _ _ p' comes =>
      rcases jobTurns_cases comes with ⟨-, -, same⟩ | ⟨-, begins, -⟩ | ⟨_, none, -⟩
      · exact absurd same own
      · cases begins
      · simp at none
    | begun => exact absurd rfl past.1
    | parked | finished => exact absurd rfl past.2

/-- A request by a method that nobody handles is refused with the next two steps of the read loop, but
    the second waits while the writer is held up. -/
theorem refused_in_time {more more' : List Move}
    (place : (((machine setup).after moves).session.connection c).readPhase = .dispatching r)
    (unserved : r.method ∉ Session.requestMethods setup.options.files)
    (vain : InVain setup moves more (.act (.reader c)))
    (vain' : InVain setup (moves ++ more ++ [.act (.reader c)]) more' (.act (.reader c))) :
    let d := (machine setup).after (moves ++ more)
    let d' := (machine setup).after (moves ++ more ++ [.act (.reader c)] ++ more')
    d.WithoutHost (.act (.reader c)) ∧ d'.WithoutHost (.act (.reader c)) ∧
    d'.replies c (.act (.reader c)) =
      (if (d'.session.connection c).ready then [(r, .failure r.id (.methodNotFound r.method))] else []) ∧
    (d'.session.busy c = true → d'.step (.act (.reader c)) = d') := by
  intro d d'
  have place : (d.session.connection c).readPhase = .dispatching r :=
    Connection.passing?_eq_some (passing_kept (by rw [Connection.passing?, place]) more vain)
  -- a connection that has begun to read is there
  have inside : ∀ {d : Scene}, (d.session.connection c).readPhase ≠ .idle →
      c < d.session.connections.length := by
    intro d reads
    by_contra outside
    simp [Session.connection, List.getElem?_eq_none (Nat.le_of_not_lt outside)] at reads
  have within : c < d.session.connections.length := inside (by simp [place])
  have unlike : ∀ n, (d.session.connection c).readPhase ≠ .handling n := by simp [place]
  have admits : (d.session.connection c).Admits (Session.requestMethods setup.options.files) :=
    (accounts_after (moves ++ more)).1.admits c
  have handles : (d.session.connection c).requestMethods = Session.requestMethods setup.options.files :=
    admits.handles.resolve_left (by simp [place])
  -- the first step finds out that nobody handles the method
  have refusing : ((d.step (.act (.reader c))).session.connection c).readPhase = .refusing r := by
    rw [step, step_reader within unlike]
    simp only [Connection.stepRead, place, Option.map_some, touch]
    rw [Session.connection_setConnection_self within]
    simp [handles, unserved]
  have place' : (d'.session.connection c).readPhase = .refusing r := by
    rw [← step_machine setup, ← Machine.after_concat] at refusing
    exact Connection.passing?_eq_some
      (passing_kept (by rw [Connection.passing?, refusing]) more' vain')
  have within' : c < d'.session.connections.length := inside (by simp [place'])
  refine ⟨withoutHost_reader within unlike, withoutHost_reader within' (by simp [place']), ?_, ?_⟩
  · simp only [replies, Session.replies, if_true, Connection.refusal?, place']
    split <;> rfl
  · intro busy
    have busy : (d'.session.connection c).busy = true := busy
    rw [step, step_reader within' (by simp [place'])]
    simp [Connection.stepRead, place', busy, touch]

/-- A request whose handler has ended is answered with the next two steps of its job, but the second
    waits while the writer is held up. -/
theorem answered_in_time {outcome : HandlerOutcome} {more more' : List Move}
    (there : (((machine setup).after moves).session.connection c).posts[j]? = some (r, .returned outcome))
    (vain : InVain setup moves more (.act (.job c j)))
    (vain' : InVain setup (moves ++ more ++ [.act (.job c j)]) more' (.act (.job c j))) :
    let d := (machine setup).after (moves ++ more ++ [.act (.job c j)] ++ more')
    d.replies c (.act (.job c j)) =
      (if (d.session.connection c).ready then [(r, Connection.answerFor r outcome)] else []) ∧
    (d.session.busy c = true → d.step (.act (.job c j)) = d) := by
  intro d
  -- nobody else touches a job whose handler has ended
  have before := post_kept (by simp) there more vain
  generalize last : (machine setup).after (moves ++ more) = d₀ at before
  -- the first step takes the id out of the table and holds the answer ready
  have answering : ((d₀.step (.act (.job c j))).session.connection c).posts[j]? =
      some (r, .answering (Connection.answerFor r outcome)) := by
    obtain ⟨job, here, same⟩ := Option.map_eq_some_iff.mp ((List.getElem?_map ..).symm.trans before)
    obtain ⟨rfl, place⟩ := Prod.mk.inj same
    obtain ⟨connection, stepped⟩ : ∃ connection, (d₀.session.connection c).stepJob j = some connection := by
      simp [Connection.stepJob, here, place]
    obtain ⟨r, p, p', there, posted, advances, -⟩ := @Connection.stepJob_posted _ _ [] _ stepped
    obtain ⟨rfl, rfl⟩ := Prod.mk.inj (Option.some.inj (before.symm.trans there))
    have result : (d₀.step (.act (.job c j))).session.connection c = connection := by
      simp only [step, Session.step, stepped, Option.map_some, touch]
      exact Session.connection_setConnection_self (Session.inside_of_posts before)
    rw [result, posted.posts, List.getElem?_modify, before]
    cases advances
    simp
  rw [← last, ← step_machine setup, ← Machine.after_concat] at answering
  have there' := post_kept (by simp) answering more' vain'
  constructor
  · simp only [replies, Session.replies, if_true, Connection.reply?, d, there']
    split <;> rfl
  · intro busy
    have busy : (d.session.connection c).busy = true := busy
    obtain ⟨job, here, same⟩ : ∃ job, (d.session.connection c).jobs[j]? = some job ∧
        (job.request, job.phase) = (r, .answering (Connection.answerFor r outcome)) :=
      Option.map_eq_some_iff.mp ((List.getElem?_map ..).symm.trans there')
    have waits : (d.session.connection c).stepJob j = none := by
      simp [Connection.stepJob, here, (Prod.mk.inj same).2, busy]
    simp [step, Session.step, waits, touch]

/-! ## Questions and answers -/

/-- A question is answered as it was offered: refused without the flag, and with it answered by a job
    with what its handler has come to. -/
theorem answered_as_offered {q : FilesQuestion} {move : Move} {response : Response}
    (among : (r, response) ∈ ((machine setup).after moves).replies c move) (named : r.method = q.method) :
    (q.flag setup.options.files ≠ some true → response = .failure r.id (.methodNotFound r.method)) ∧
    (q.flag setup.options.files = some true → ∃ j state outcome, move = .act (.job c j) ∧
      beginnings setup c j moves = [state] ∧ response = Connection.answerFor r outcome ∧
      Served setup moves c j r state outcome) := by
  have admits := (@accounts_after setup moves).1.admits c
  have known := @FilesQuestion.method_mem_requestMethods setup.options.files q
  obtain ⟨-, ⟨place, refused⟩ | ⟨j, mover, there⟩⟩ := mem_replies among
  · have unknown := named ▸ admits.refused r place
    exact ⟨fun _ => refused, fun flag => absurd (known.mpr flag) unknown⟩
  · have served : q.flag setup.options.files = some true :=
      known.mp (named ▸ admits.posted _ (List.mem_of_getElem? there))
    refine ⟨fun unset => absurd served unset, fun _ => ?_⟩
    have accounted := @accounted_after setup c j moves
    rw [Session.handling_eq there rfl] at accounted
    obtain ⟨state, outcome, began, answer, served⟩ :=
      accounted (FilesQuestion.asksForFiles_iff.mpr ⟨q, named⟩)
    exact ⟨j, state, outcome, mover, began, answer, served⟩

/-- Who gets a result has found the session running, on a connection with the offer. -/
theorem offered_of_result {q : FilesQuestion} {move : Move} {response : Response} {v : Json}
    (among : (r, response) ∈ ((machine setup).after moves).replies c move) (named : r.method = q.method)
    (result : response.result = some v) :
    (∃ j, move = .act (.job c j) ∧ beginnings setup c j moves = [.running]) ∧
    ∃ request, .request request ∈ (((machine setup).after moves).session.connection c).sent ∧
      request.method = "initialize" ∧ q.offeredIn request = some (.bool true) := by
  obtain ⟨refused, answered⟩ := answered_as_offered among named
  have flag : q.flag setup.options.files = some true := by
    by_contra unset
    simp [refused unset, Response.failure] at result
  obtain ⟨j, state, outcome, mover, began, rfl, served⟩ := answered flag
  have running : state = .running := by
    cases served with
    | idle => simp [Connection.answerFor, Response.failure] at result
    | _ => rfl
  subst running
  have once := once_of_mem_beginnings (by rw [began]; exact List.mem_singleton_self _)
  obtain ⟨root, id, n, sent⟩ := offered_of_once_running once (inside_of_mem_replies among)
    (mem_replies among).1
  exact ⟨⟨j, mover, began⟩, _, sent, rfl, by rw [q.offeredIn_offer, flag]; rfl⟩

/-- **Files are served as offered.**  All that is answered on a connection answers a request of the
    server, and for a request about files it is:

    * METHOD_NOT_FOUND, unless the flag for the question is set.  A request that the read loop has read is
      refused with its next two steps, whatever happens before and between them, and the host has no part
      in them.  Only a writer that is held up keeps it waiting.
    * what the handler of the request has come to, when the flag is set (`Served`).  When it has found the
      session in any other state than running, that is an error, which comes of its first step without
      the host, and is answered with the next two steps of the job.
    * a result, only if the handler has found the session running, and the flag was true in the parameters
      of an `initialize` that was sent on the connection.  For a content it is the document that was open
      in the host when the handler looked for it, or, when none was, what was read from the file, without
      a version and with the language of its path. -/
theorem files_served_as_offered (setup : Setup) (moves : List Move) (c : Nat) (q : FilesQuestion) :
    let d := (machine setup).after moves
    (∀ move, ((d.step move).session.connection c).answers =
      (d.session.connection c).answers ++ (d.replies c move).map (·.2)) ∧
    (∀ move r response, (r, response) ∈ d.replies c move → r.method = q.method →
      (q.flag setup.options.files ≠ some true → response = .failure r.id (.methodNotFound r.method)) ∧
      (q.flag setup.options.files = some true → ∃ j state outcome, move = .act (.job c j) ∧
        beginnings setup c j moves = [state] ∧ response = Connection.answerFor r outcome ∧
        Served setup moves c j r state outcome) ∧
      ∀ v, response.result = some v →
        (∃ j, move = .act (.job c j) ∧ beginnings setup c j moves = [.running]) ∧
        ∃ request, .request request ∈ (d.session.connection c).sent ∧
          request.method = "initialize" ∧ q.offeredIn request = some (.bool true)) ∧
    (∀ r, (d.session.connection c).readPhase = .dispatching r → r.method = q.method →
      q.flag setup.options.files ≠ some true → ∀ more more' : List Move,
      InVain setup moves more (.act (.reader c)) →
      InVain setup (moves ++ more ++ [.act (.reader c)]) more' (.act (.reader c)) →
      let d₁ := (machine setup).after (moves ++ more)
      let d₂ := (machine setup).after (moves ++ more ++ [.act (.reader c)] ++ more')
      d₁.WithoutHost (.act (.reader c)) ∧ d₂.WithoutHost (.act (.reader c)) ∧
      d₂.replies c (.act (.reader c)) = (if (d₂.session.connection c).ready then
        [(r, .failure r.id (.methodNotFound r.method))] else []) ∧
      (d₂.session.busy c = true → d₂.step (.act (.reader c)) = d₂)) ∧
    ∀ r j, d.session.handling c j = ⟨some (r, .running), none⟩ → r.method = q.method →
      d.session.state ≠ .running →
      d.WithoutHost (.act (.handler c j)) ∧ ∀ more more' : List Move,
      InVain setup (moves ++ [.act (.handler c j)]) more (.act (.job c j)) →
      InVain setup (moves ++ [.act (.handler c j)] ++ more ++ [.act (.job c j)]) more'
        (.act (.job c j)) →
      let d₁ := (machine setup).after (moves ++ [.act (.handler c j)] ++ more)
      let d₂ := (machine setup).after
        (moves ++ [.act (.handler c j)] ++ more ++ [.act (.job c j)] ++ more')
      d₁.WithoutHost (.act (.job c j)) ∧ d₂.WithoutHost (.act (.job c j)) ∧
      d₂.replies c (.act (.job c j)) = (if (d₂.session.connection c).ready then
        [(r, Connection.answerFor r (.failed (.invalidState setup.server.name d.session.state.text)))]
        else []) ∧
      (d₂.session.busy c = true → d₂.step (.act (.job c j)) = d₂) := by
  intro d
  have attended : d.session.Attended setup.options.files := (accounts_after moves).1
  have works := @worksBy_after setup moves
  refine ⟨fun move => (step_turns (covered_after moves) works.files attended move).answers c, ?_, ?_, ?_⟩
  · intro move r response among named
    -- who was answered had its handler run as the account of the job says
    have answered := answered_as_offered among named
    exact ⟨answered.1, answered.2, fun v result => offered_of_result among named result⟩
  · intro r place named unset more more' vain vain'
    refine refused_in_time place (fun known => unset ?_) vain vain'
    exact q.method_mem_requestMethods.mp (named ▸ known)
  · intro r j fresh named idle
    obtain ⟨free, ended⟩ := step_handler_idle fresh (FilesQuestion.asksForFiles_iff.mpr ⟨q, named⟩) idle
    refine ⟨free, fun more more' vain vain' => ⟨withoutHost_job _ c j, withoutHost_job _ c j, ?_⟩⟩
    have there : (((machine setup).after (moves ++ [.act (.handler c j)])).session.connection c).posts[j]? =
        some (r, .returned (.failed (.invalidState setup.server.name d.session.state.text))) := by
      rw [Machine.after_concat, step_machine]
      have named : d.session.name = setup.server.name := works.name
      exact named ▸ congrArg Handling.job ended
    exact answered_in_time there vain vain'

/-- A session that hands out contents, but no listings, and has one file. -/
def lending : Setup :=
  { agreeing with
    host := { agreeing.host with tree := { root := .dir [("w", .dir [("b.txt", .file [104, 105])])] } }
    options := { files := { contents := some true } } }

/-- A request for a content. -/
def asksFor (number uri : String) : Request :=
  { id := .text number
    method := FileService.contentMethod
    params := some (toJson ({ textDocument := ⟨uri⟩ } : ContentParams)) }

/-- A document that the editor has open. -/
def lent : Document :=
  { uri := "file:///w/a.rs", languageId := "rust", version := 3, text := "fn" }

/-- A request of the server comes in while the session runs and a document is open. -/
def questioned (r : Request) : List Move :=
  agreed ++ goesOn 6 ++ [.openDocument lent] ++
    .feed 0 (Utf8.encodeString (Message.request r).frame) :: List.replicate 3 (.act (.reader 0))

/-- The content of an open document is about to be handed out. -/
def handingOut : List Move :=
  questioned (asksFor "c1" lent.uri) ++
    [.act (.job 0 0), .act (.handler 0 0), .act (.handler 0 0), .act (.job 0 0)]

theorem files_served_as_offered_handingOut :
    let d := (machine lending).after handingOut
    d.replies 0 (.act (.job 0 0)) =
      [(asksFor "c1" lent.uri, .success (.text "c1") (toJson (TextDocumentItem.ofDocument lent)))] ∧
    beginnings lending 0 0 handingOut = [.running] ∧
    ∃ request, .request request ∈ (d.session.connection 0).sent ∧ request.method = "initialize" ∧
      FilesQuestion.content.offeredIn request = some (.bool true) := by
  have replied : ((machine lending).after handingOut).replies 0 (.act (.job 0 0)) =
      [(asksFor "c1" lent.uri, .success (.text "c1") (toJson (TextDocumentItem.ofDocument lent)))] := by
    decide +kernel
  obtain ⟨-, answered, -⟩ := files_served_as_offered lending handingOut 0 .content
  obtain ⟨-, -, offered⟩ := answered (.act (.job 0 0)) (asksFor "c1" lent.uri)
    (.success (.text "c1") (toJson (TextDocumentItem.ofDocument lent)))
    (by rw [replied]; exact List.mem_singleton_self _) rfl
  obtain ⟨⟨j, mover, began⟩, request, sent, named, flag⟩ := offered _ rfl
  obtain rfl : j = 0 := by simpa using mover.symm
  exact ⟨replied, began, request, sent, named, flag⟩

/-- The same session refuses a request for its files. -/
example :
    let listing := { asksFor "l1" lent.uri with method := FileService.listMethod }
    ((machine lending).after (questioned listing).dropLast).replies 0 (.act (.reader 0)) =
      [(listing, .failure (.text "l1") (.methodNotFound FileService.listMethod))] := by
  decide +kernel

end Scene

end LanguageClient
