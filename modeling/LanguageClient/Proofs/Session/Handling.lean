import LanguageClient.Proofs.Connection.Intake
import LanguageClient.Proofs.Session.Registry
import LanguageClient.Proofs.Session.Run
/-!
# How the requests of the server are handled

The job for a request and its handler go one way: the job is started and begins, the handler may wait,
and at its end the job has an outcome to answer with.  `Handling.Step` says what can become of one of
them in one step, and which change of the registry is made thereby.  What happens to a job is a
`JobTurn`; which job may take which turn is left open there.

Tasks have no part in this (`TaskStep.spares`), but that a teardown takes all registrations away.
-/

namespace LanguageClient

/-- What a request asks of the registry; nothing when its parameters cannot be read. -/
def Request.registryChange? (r : Request) : Option RegistryChange :=
  match r.method with
  | "client/registerCapability" =>
    (Session.readParams r.params : Except ClientError RegistrationParams).toOption.map
      fun params => .register params.registrations
  | "client/unregisterCapability" =>
    (Session.readParams r.params : Except ClientError UnregistrationParams).toOption.map
      fun params => .unregister params.unregistrations
  | _ => none

/-- What a handler that waits is about to make of the registry. -/
def HandlerPhase.registryChange? : HandlerPhase → Option RegistryChange
  | .registering registrations => some (.register registrations)
  | .unregistering unregistrations => some (.unregister unregistrations)
  | _ => none

/-- Something that happens to the registry, or to somebody who wants it changed. -/
inductive RegistryEvent where
  /-- A request for a change was read on a connection. -/
  | wished (c : Nat) (change : RegistryChange)
  /-- The handler of a job made a change. -/
  | made (c j : Nat) (change : RegistryChange)
  /-- A teardown took all registrations away. -/
  | cleared
  deriving DecidableEq

namespace RegistryEvent

/-- The change that was wished for on a connection. -/
def wishedOn? (c : Nat) : RegistryEvent → Option RegistryChange
  | wished c' change => if c' = c then some change else none
  | _ => none

/-- The change that the handler of a job made. -/
def madeBy? (c j : Nat) : RegistryEvent → Option RegistryChange
  | made c' j' change => if c' = c ∧ j' = j then some change else none
  | _ => none

/-- What becomes of the registry. -/
def apply : RegistryEvent → CapabilityRegistry → CapabilityRegistry
  | wished .., registry => registry
  | made _ _ change, registry => change.apply registry
  | cleared, _ => {}

/-- What becomes of the registry, one event after another. -/
def replay (events : List RegistryEvent) (registry : CapabilityRegistry) : CapabilityRegistry :=
  events.foldl (fun registry event => event.apply registry) registry

end RegistryEvent

/-! ## One request -/

/-- What happens to the job for a request with a step: it goes on by itself, or its handler takes a step
    after which it waits for something, or has ended. -/
inductive JobTurn where
  | advances
  | waits (p : HandlerPhase)
  | ends (outcome : HandlerOutcome)

/-- Where the handling of a request stands: its job, if it has come, and its handler, if that waits. -/
structure Handling where
  job : Option (Request × JobPhase)
  handler : Option HandlerPhase

namespace Handling

/-- The change that the request asks for. -/
def asked (x : Handling) : List RegistryChange :=
  (x.job.bind (·.1.registryChange?)).toList

/-- The change that is still to be made for the request. -/
def due (x : Handling) : List RegistryChange :=
  match x.job, x.handler with
  | some (r, .spawned), _ | some (r, .running), none => r.registryChange?.toList
  | some (_, .running), some p => p.registryChange?.toList
  | _, _ => []

/-- A handler waits only for a job that runs. -/
def Manned (x : Handling) : Prop :=
  ∀ p, x.handler = some p → ∃ r, x.job = some (r, .running)

/-- What can become of the handling of a request in one step, and the change that is made, where its
    job may take some turns: by the request, and what the handler has waited for. -/
inductive Step (may : Request → Option HandlerPhase → JobTurn → Prop) :
    Handling → List RegistryChange → Handling → Prop where
  | stayed (x : Handling) : Step may x [] x
  | arrived (r : Request) : Step may ⟨none, none⟩ [] ⟨some (r, .spawned), none⟩
  | begun (r : Request) (comes : may r none .advances) :
      Step may ⟨some (r, .spawned), none⟩ [] ⟨some (r, .running), none⟩
  | parked (r : Request) (w : Option HandlerPhase) (p : HandlerPhase) (comes : may r w (.waits p))
      (same : p.registryChange?.toList = due ⟨some (r, .running), w⟩) :
      Step may ⟨some (r, .running), w⟩ [] ⟨some (r, .running), some p⟩
  | finished (r : Request) (w : Option HandlerPhase) (outcome : HandlerOutcome)
      (comes : may r w (.ends outcome)) :
      Step may ⟨some (r, .running), w⟩ (due ⟨some (r, .running), w⟩) ⟨some (r, .returned outcome), none⟩
  | answered (r : Request) (p p' : JobPhase) (comes : may r none .advances)
      (next : Connection.Advances r p p') (past : p ≠ .spawned) :
      Step may ⟨some (r, p), none⟩ [] ⟨some (r, p'), none⟩

variable {x x' : Handling} {changes : List RegistryChange}
  {may : Request → Option HandlerPhase → JobTurn → Prop}

theorem due_of_past {r : Request} {p : JobPhase} (past : p ≠ .spawned ∧ p ≠ .running)
    (w : Option HandlerPhase) : due ⟨some (r, p), w⟩ = [] := by
  cases p <;> simp_all [due]

/-- A handler waits for nothing else after a step. -/
theorem Step.manned (step : Step may x changes x') (manned : x.Manned) : x'.Manned := by
  cases step with
  | stayed => exact manned
  | parked r w p => exact fun _ _ => ⟨r, rfl⟩
  | _ => simp [Manned]

/-- The changes made for a request, and the one that is still to be made, are what it asks for. -/
theorem Step.balanced {past : List RegistryChange} (step : Step may x changes x')
    (balanced : past ++ x.due = x.asked) : past ++ changes ++ x'.due = x'.asked := by
  cases step with
  | stayed => simpa using balanced
  | arrived r =>
    obtain rfl : past = [] := by simpa [due, asked] using balanced
    rfl
  | begun r => simpa [due, asked] using balanced
  | parked r w p comes same =>
    rw [List.append_nil]
    exact (congrArg (past ++ ·) same).trans balanced
  | finished r w outcome => simpa [due, asked] using balanced
  | answered r p p' comes next before =>
    cases next with
    | begun => exact absurd rfl before
    | returned | answered => simpa [due, asked] using balanced

end Handling

namespace Session

variable {now : Nat} {h h' : Host} {s s' s₁ : Session} {t c j : Nat} {task task' : Task}
  {files : FilesCapabilities}

/-- Where the handling of a request stands. -/
def handling (s : Session) (c j : Nat) : Handling :=
  ⟨(s.connection c).posts[j]?, s.handlers.get? (c, j)⟩

theorem handling_eq {post : Option (Request × JobPhase)} {w : Option HandlerPhase}
    (there : (s.connection c).posts[j]? = post) (waits : s.handlers.get? (c, j) = w) :
    s.handling c j = ⟨post, w⟩ := by
  rw [handling, there, waits]

theorem handling_congr (posts : (s'.connection c).posts[j]? = (s.connection c).posts[j]?)
    (waits : s'.handlers.get? (c, j) = s.handlers.get? (c, j)) : s'.handling c j = s.handling c j := by
  rw [handling, posts, waits, handling]

/-! ## What handlers do -/

end Session

/-- A request for the files of the workspace, or for the content of one. -/
def Request.AsksForFiles (r : Request) : Prop :=
  r.method = FileService.listMethod ∨ r.method = FileService.contentMethod

/-- A handler waits for something about files. -/
def HandlerPhase.AboutFiles : HandlerPhase → Prop
  | .listing _ | .looking _ | .reading .. => True
  | _ => False

namespace Session

variable {now : Nat} {h h' : Host} {s s' s₁ : Session} {t c j : Nat} {task task' : Task}
  {files : FilesCapabilities}

/-- What the handler of a request does when it begins. -/
inductive Begins (h : Host) (s : Session) (r : Request) : JobTurn → Prop where
  /-- Files are served by sessions that run. -/
  | idle (asks : r.AsksForFiles) (idle : s.state ≠ .running) :
      Begins h s r (.ends (.failed s.invalidState))
  | failed (e : ClientError) (running : r.AsksForFiles → s.state = .running) :
      Begins h s r (.ends (.failed e))
  | listing (base : String) (asks : r.method = FileService.listMethod)
      (running : s.state = .running) : Begins h s r (.waits (.listing base))
  | looking (params : ContentParams) (asks : r.method = FileService.contentMethod)
      (running : s.state = .running)
      (read : (readParams r.params : Except ClientError ContentParams) = .ok params) :
      Begins h s r (.waits (.looking params.textDocument.uri))
  | answered (v : Json) (other : ¬ r.AsksForFiles) : Begins h s r (.ends (.value v))
  | waiting (p : HandlerPhase) (other : ¬ r.AsksForFiles) (unlike : ¬ p.AboutFiles) :
      Begins h s r (.waits p)

/-- What a handler that waits does with its next step. -/
inductive GoesOn (h : Host) : HandlerPhase → JobTurn → Prop where
  | done (p : HandlerPhase) (v : Json) (other : ¬ p.AboutFiles) : GoesOn h p (.ends (.value v))
  | failed (p : HandlerPhase) (e : ClientError) : GoesOn h p (.ends (.failed e))
  | opened (uri : String) (d : Document) (found : h.document? uri = some d) :
      GoesOn h (.looking uri) (.ends (.value (toJson (TextDocumentItem.ofDocument d))))
  | closed (uri path : String) (absent : h.document? uri = none)
      (place : Uri.toPath? uri = some path) : GoesOn h (.looking uri) (.waits (.reading uri path))

/-- What a handler does when the work on files that it has waited for is done. -/
inductive Gets (h : Host) : HandlerPhase → JobTurn → Prop where
  | failed (p : HandlerPhase) (e : ClientError) : Gets h p (.ends (.failed e))
  | listed (base : String) (paths : List String)
      (found : h.listFiles base (fun _ => false) = .ok paths) :
      Gets h (.listing base) (.ends (.value (toJson (FileService.listing paths))))
  | read (uri path text : String) (found : h.fileText path = .ok text) :
      Gets h (.reading uri path) (.ends (.value (toJson
        ({ uri, languageId := languageOfPath path, version := .unknown, text } : TextDocumentItem))))

/-! ## What tasks leave alone -/

/-- Nothing becomes of the requests of the server. -/
structure Unasked (files : FilesCapabilities) (s s' : Session) : Prop where
  handlers : s'.handlers = s.handlers
  connection : ∀ c, (s.connection c).Unasked (requestMethods files) (s'.connection c)

namespace Unasked

theorem of_eq (handlers : s'.handlers = s.handlers) (connections : s'.connections = s.connections) :
    Unasked files s s' := by
  refine ⟨handlers, fun c => ?_⟩
  unfold Session.connection
  rw [connections]
  cases s.connections[c]? <;> exact .of_eq rfl rfl rfl rfl

/-- Where one connection changes, nothing becomes of the requests on the others. -/
theorem of_ne {connection : Connection} {i : Nat} (other : i ≠ c)
    (connections : s'.connections = s.connections.set c connection) :
    (s.connection i).Unasked (requestMethods files) (s'.connection i) := by
  unfold Session.connection
  rw [connections, List.getElem?_set_ne (Ne.symm other)]
  cases s.connections[i]? <;> exact .of_eq rfl rfl rfl rfl

theorem of_set {connection : Connection}
    (same : (s.connection c).Unasked (requestMethods files) connection)
    (handlers : s'.handlers = s.handlers)
    (connections : s'.connections = s.connections.set c connection) : Unasked files s s' := by
  refine ⟨handlers, fun i => ?_⟩
  by_cases here : i = c
  · subst here
    by_cases inside : i < s.connections.length
    · rwa [show s'.connection i = connection by simp [Session.connection, connections, inside]]
    · rw [List.set_eq_of_length_le (Nat.le_of_not_lt inside)] at connections
      exact (of_eq handlers connections).connection i
  · exact of_ne here connections

theorem trans (before : Unasked files s s₁) (after : Unasked files s₁ s') : Unasked files s s' :=
  ⟨after.handlers.trans before.handlers, fun c => (before.connection c).trans (after.connection c)⟩

/-- Afterwards the handlers and the connections stay as they are. -/
theorem keeps (before : Unasked files s s₁) (handlers : s'.handlers = s₁.handlers)
    (connections : s'.connections = s₁.connections) : Unasked files s s' :=
  before.trans (.of_eq handlers connections)

theorem handling (same : Unasked files s s') (c j : Nat) : s'.handling c j = s.handling c j :=
  handling_congr (by rw [(same.connection c).posts]) (by rw [same.handlers])

end Unasked

theorem Called.unasked {call call' : Call} (step : Called now s c call s' call') :
    Unasked files s s' := by
  obtain ⟨connection, phase, step⟩ := step
  exact .of_set step.unasked rfl rfl

theorem unasked_writes (s : Session) (c : Nat) {m : Message} (other : m.response? = none) :
    Unasked files s (s.writes c m) :=
  have same : (s.connection c).Unasked (requestMethods files)
      { s.connection c with sent := (s.connection c).sent ++ [m] } :=
    .of_eq rfl rfl rfl (Connection.answers_concat other)
  .of_set same rfl rfl

end Session

/-- A task takes all registrations away with its next step. -/
def Task.clearsRegistry : Task → Bool
  | .start (.failing _ down) | .stop (.tearing down) | .watch _ (.tearing down) => down == .clearing
  | _ => false

namespace Session

variable {now : Nat} {h h' : Host} {s s' s₁ : Session} {t c j : Nat} {task task' : Task}
  {files : FilesCapabilities}

/-- What a step of a task does as far as the server's requests are concerned: it clears the registry,
    or does nothing. -/
structure Spares (files : FilesCapabilities) (s : Session) (task : Task) (s' : Session) : Prop where
  unasked : s.Unasked files s'
  registry : s'.registry = if task.clearsRegistry then {} else s.registry

namespace Spares

theorem of_eq (handlers : s'.handlers = s.handlers) (connections : s'.connections = s.connections)
    (registry : s'.registry = s.registry) (keeps : task.clearsRegistry = false) :
    Spares files s task s' :=
  ⟨.of_eq handlers connections, by simp [keeps, registry]⟩

theorem of_unasked (unasked : s.Unasked files s') (registry : s'.registry = s.registry)
    (keeps : task.clearsRegistry = false) : Spares files s task s' :=
  ⟨unasked, by simp [keeps, registry]⟩

end Spares

theorem Called.registry {call call' : Call} (step : Called now s c call s' call') :
    s'.registry = s.registry := by
  obtain ⟨connection, rfl⟩ := step.eq_setConnection
  rfl

theorem Called.spares {call call' : Call} (step : Called now s₁ c call s' call')
    (before : s.Unasked files s₁) (registry : s₁.registry = s.registry)
    (keeps : task.clearsRegistry = false) : Spares files s task s' :=
  .of_unasked (before.trans step.unasked) (step.registry.trans registry) keeps

theorem TeardownStep.spares {p p' : Teardown} (step : TeardownStep s p s₁ p')
    (handlers : s'.handlers = s₁.handlers) (connections : s'.connections = s₁.connections)
    (registry : s'.registry = s₁.registry) (clears : task.clearsRegistry = (p == .clearing)) :
    Spares files s task s' := by
  have keeps : p ≠ .clearing → s₁.registry = s.registry →
      s'.registry = if task.clearsRegistry then {} else s.registry := by
    intro other same
    simp [clears, other, registry, same]
  cases step with
  | detached c used =>
    exact ⟨.of_set (s.connection c).unasked_beginClose handlers connections, keeps (by simp) rfl⟩
  | closed c q q' connection next step =>
    exact ⟨.of_set (Connection.unasked_stepClose step) handlers connections, keeps (by simp) rfl⟩
  | cleared => exact ⟨.of_eq handlers connections, by simp [clears, registry, CapabilityRegistry.clear]⟩
  | _ => exact ⟨.of_eq handlers connections, keeps (by simp) rfl⟩

/-- A new connection has no request of the server yet. -/
theorem unasked_newConnection (serves : s.options.files = files) (handlers : s'.handlers = s.handlers)
    (connections : s'.connections = s.connections ++ [s.newConnection]) : Unasked files s s' := by
  refine ⟨handlers, fun c => ?_⟩
  unfold Session.connection
  rw [connections, List.getElem?_append]
  split
  · cases s.connections[c]? <;> exact .of_eq rfl rfl rfl rfl
  · rename_i outside
    rw [List.getElem?_eq_none (Nat.le_of_not_lt outside), List.getElem?_singleton]
    split
    · exact ⟨rfl, rfl, rfl, fun _ => Or.inr (by simp [newConnection, serves])⟩
    · exact .of_eq rfl rfl rfl rfl

theorem StartStep.spares {p p' : StartPhase} (step : StartStep now h s t p h' s' p')
    (serves : s.options.files = files) :
    Spares files s (.start p) s' := by
  cases step with
  | connected outcome rest _ next => exact .of_eq rfl rfl rfl rfl
  | held => exact .of_unasked (unasked_newConnection serves rfl rfl) rfl rfl
  | published c _ call begun => exact begun.spares (.of_eq rfl rfl) rfl rfl
  | called c attempt call _ call' unanswered step => exact step.spares (.of_eq rfl rfl) rfl rfl
  | concluded c attempt call result _ _ _ ended next => cases next <;> exact .of_eq rfl rfl rfl rfl
  -- the step of the call and what follows it are looked at one after the other
  | answered c attempt call _ call' result _ _ _ unanswered step ended next =>
    have spares : Spares files s (.start (.initializing c attempt call)) _ :=
      step.spares (.of_eq rfl rfl) rfl rfl
    cases next <;>
      exact ⟨spares.unasked.keeps rfl rfl, spares.registry⟩
  | retried c attempt _ _ call place begun =>
    rcases place with ⟨failure, rfl⟩ | ⟨failure, deadline, rfl⟩ <;>
      exact begun.spares (.of_eq rfl rfl) rfl rfl
  | gaveUp c attempt _ failure place =>
    rcases place with ⟨reply, rfl⟩ | ⟨deadline, reply, rfl⟩ <;> exact .of_eq rfl rfl rfl rfl
  | greeted c kind can on => exact .of_unasked (unasked_writes s c rfl) rfl rfl
  | greetedOnly c can => exact .of_unasked ((unasked_writes s c rfl).keeps rfl rfl) rfl rfl
  | listed c _ _ next => cases next <;> exact .of_eq rfl rfl rfl rfl
  | announced c params rest _ _ can next =>
    cases next <;> exact .of_unasked ((unasked_writes s c rfl).keeps rfl rfl) rfl rfl
  | unwritten c _ e place cannot =>
    rcases place with ⟨kind, rfl⟩ | ⟨params, rest, rfl⟩ <;> exact .of_eq rfl rfl rfl rfl
  | tore e t _ t' step | failed e t _ step | failedQuietly e t _ step | failedLate e t _ step =>
    exact step.spares rfl rfl rfl rfl
  | _ => exact .of_eq rfl rfl rfl rfl

theorem StopStep.spares {p p' : StopPhase} (step : StopStep now s p s' p') :
    Spares files s (.stop p) s' := by
  cases step with
  | asked c _ call free begun => exact begun.spares (.of_eq rfl rfl) rfl rfl
  | unasked previous c other free =>
    exact .of_unasked (.of_set (s.connection c).unasked_beginClose rfl rfl) rfl rfl
  | called c call _ call' unanswered step => exact step.spares (.of_eq rfl rfl) rfl rfl
  | exited c =>
    have unasked : (s.connection c).Unasked (requestMethods files) _ :=
      (s.connection c).unasked_tryWrite (show (Message.notification { method := "exit" }).response? = none
        from rfl)
    exact .of_unasked (.of_set (unasked.trans (Connection.unasked_beginClose _)) rfl
      (by rw [onConnection_onConnection]; rfl)) rfl rfl
  | closed c p p' connection next step place =>
    exact .of_unasked (.of_set (Connection.unasked_stepClose step) rfl rfl) rfl rfl
  | tore t _ t' step | stopped t _ step => exact step.spares rfl rfl rfl rfl
  | _ => exact .of_eq rfl rfl rfl rfl

theorem QueryStep.spares {q : EditQuery} {p p' : QueryPhase} (step : QueryStep now h s t q p s' p') :
    Spares files s (.query q p) s' := by
  cases step with
  | ahead c _ _ _ place next =>
    cases next with
    | flushed => exact .of_eq rfl rfl rfl rfl
    | asked _ call nothing begun => exact begun.spares (.of_eq rfl rfl) rfl rfl
  | wrote c params _ call can begun =>
    exact begun.spares ((unasked_writes s c rfl).keeps rfl rfl) rfl rfl
  | called c call _ call' unanswered step => exact step.spares (.of_eq rfl rfl) rfl rfl
  | _ => exact .of_eq rfl rfl rfl rfl

theorem TaskStep.spares (step : TaskStep now h s t task h' s' task')
    (serves : s.options.files = files) : Spares files s task s' := by
  cases step with
  | start p _ _ p' step => exact step.spares serves
  | stop p _ p' step => exact step.spares
  | watch c p _ _ p' step =>
    cases step with
    | tore t _ t' step => exact step.spares rfl rfl rfl rfl
    | _ => exact .of_eq rfl rfl rfl rfl
  | event e p _ p' step =>
    cases step with
    | ahead e c params _ _ can next =>
      rcases next with ⟨uri, reason, -, -, rfl⟩ | ⟨uri, text, -, -, rfl⟩ | ⟨-, rfl⟩ <;>
        exact .of_unasked ((unasked_writes s c rfl).keeps rfl rfl) rfl rfl
    | wrote e c n can =>
      exact .of_unasked ((unasked_writes s c rfl).keeps rfl rfl) rfl rfl
    | _ => exact .of_eq rfl rfl rfl rfl
  | delivery uri generation deadline p _ p' step =>
    cases step with
    | wrote c params can => exact .of_unasked ((unasked_writes s c rfl).keeps rfl rfl) rfl rfl
    | _ => exact .of_eq rfl rfl rfl rfl
  | query q p _ p' step => exact step.spares
  | request method params cancelled p _ p' step =>
    cases step with
    | asked c _ call current begun => exact begun.spares (.of_eq rfl rfl) rfl rfl
    | called c call _ call' unanswered step => exact step.spares (.of_eq rfl rfl) rfl rfl
    | _ => exact .of_eq rfl rfl rfl rfl

end Session

end LanguageClient
