import LanguageClient.Proofs.Host.Records
import LanguageClient.Proofs.Session.Life
import LanguageClient.Session.Handler
/-!
# Serving the server

All that a session does for its server, beside the tasks of the client, is of one kind (`Serves`): a
connection changes as it may by itself, and so does what the session keeps of its server.  Handlers,
the read loop and the work on files are of this kind.
-/

namespace LanguageClient.Session

variable {h h' : Host} {s s' : Session}

/-- The work of a handler, of the read loop or of the server: it changes one connection, and what the
    session keeps of its server. -/
def Serves (h : Host) (s : Session) (h' : Host) (s' : Session) : Prop :=
  ∃ c connection registry handlers passing diagnostics, h'.documents = h.documents ∧
    (s.connection c).Effect connection ∧
    s' = { s.setConnection c connection with registry, handlers, passing, diagnostics }

/-- Only a connection changes. -/
theorem serves_onConnection (c : Nat) {connection : Connection}
    (effect : (s.connection c).Effect connection) (documents : h'.documents = h.documents) :
    Serves h s h' (s.setConnection c connection) :=
  ⟨c, connection, s.registry, s.handlers, s.passing, s.diagnostics, documents, effect, rfl⟩

/-- Only what the session keeps of its server changes. -/
theorem serves_keeping (registry : CapabilityRegistry) (handlers : Table (Nat × Nat) HandlerPhase)
    (passing : Table Nat PublishDiagnosticsParams) (diagnostics : Table String (List Diagnostic))
    (documents : h'.documents = h.documents) :
    Serves h s h' { s with registry, handlers, passing, diagnostics } :=
  ⟨0, s.connection 0, registry, handlers, passing, diagnostics, documents, .steady (.refl _), by
    rw [setConnection_connection]⟩

theorem serves_finishHandler (c j : Nat) (outcome : HandlerOutcome)
    (registry : CapabilityRegistry) (documents : h'.documents = h.documents) :
    Serves h s h' ({ s with registry }.finishHandler c j outcome) :=
  ⟨c, _, registry, _, s.passing, s.diagnostics, documents,
    .steady ((s.connection c).steady_finishJob j outcome), rfl⟩

theorem serves_finishHandling (c : Nat) (passing : Table Nat PublishDiagnosticsParams)
    (documents : h'.documents = h.documents) :
    Serves h s h' ({ s with passing }.onConnection c (·.finishHandling)) :=
  ⟨c, _, s.registry, s.handlers, passing, s.diagnostics, documents,
    .steady (s.connection c).steady_finishHandling, rfl⟩

theorem serves_withParams {α : Type} (c j : Nat) (params : Except ClientError α) {go : α → Session}
    (goes : ∀ a, Serves h s h (go a)) : Serves h s h (s.withParams c j params go) := by
  cases params with
  | ok a => exact goes a
  | error e => exact serves_finishHandler c j _ s.registry rfl

theorem serves_park (c j : Nat) (p : HandlerPhase) (documents : h'.documents = h.documents) :
    Serves h s h' (s.parkHandler c j p) :=
  serves_keeping s.registry _ s.passing s.diagnostics documents

theorem documents_prompt (h : Host) (message : String) (actions : List String) :
    (h.prompt message actions).2.documents = h.documents := by
  rw [h.prompt_eq]

theorem serves_beginHandler (c j : Nat) (r : Request) :
    Serves h s (s.beginHandler h c j r).1 (s.beginHandler h c j r).2 := by
  have ends : ∀ outcome, Serves h s h (s.finishHandler c j outcome) := fun outcome =>
    serves_finishHandler c j outcome s.registry rfl
  unfold beginHandler
  split
  · exact serves_withParams c j _ fun params => serves_park c j _ rfl
  · exact serves_withParams c j _ fun params => serves_park c j _ rfl
  · exact ends _
  · exact serves_park c j _ (documents_prompt h _ _)
  · simp only [beginListing]
    split
    · exact ends _
    · refine serves_withParams c j _ fun params => ?_
      split
      · exact serves_park c j _ rfl
      · exact ends _
  · simp only [beginContent]
    split
    · exact ends _
    · exact serves_withParams c j _ fun params => serves_park c j _ rfl
  · exact ends _

theorem serves_continueHandler {c j : Nat} {cancelled : Bool} {p : HandlerPhase}
    (step : s.continueHandler h c j cancelled p = some s') : Serves h s h s' := by
  -- a handler that ends serves the server
  have ends : ∀ outcome, Serves h s h (s.finishHandler c j outcome) := fun outcome =>
    serves_finishHandler c j outcome s.registry rfl
  unfold continueHandler at step
  split at step
  · obtain rfl := Option.some.inj step
    exact serves_finishHandler c j _ _ rfl
  · obtain rfl := Option.some.inj step
    exact serves_finishHandler c j _ _ rfl
  · obtain rfl := Option.some.inj step
    exact ends _
  · simp at step
  · split at step
    · obtain rfl := Option.some.inj step
      exact ends _
    · simp at step
  · split at step
    · obtain rfl := Option.some.inj step
      exact ends _
    · obtain rfl := Option.some.inj step
      exact ends _
    · obtain rfl := Option.some.inj step
      exact serves_park c j _ rfl
  · split at step
    · obtain rfl := Option.some.inj step
      exact ends _
    · simp at step

theorem serves_stepHandler {c j : Nat} (step : s.stepHandler h c j = some (h', s')) :
    Serves h s h' s' := by
  simp only [stepHandler, Option.bind_eq_bind] at step
  obtain ⟨job, -, step⟩ := Option.bind_eq_some_iff.mp step
  obtain ⟨-, -, step⟩ := Option.bind_eq_some_iff.mp step
  split at step
  · have begun := serves_beginHandler (h := h) (s := s) c j job.request
    have same : s.beginHandler h c j job.request = (h', s') := Option.some.inj step
    rwa [same] at begun
  · obtain ⟨s₁, continued, same⟩ := Option.bind_eq_some_iff.mp step
    obtain ⟨rfl, rfl⟩ := by simpa using same
    exact serves_continueHandler continued

/-- Work on files that is done settles the handler that waits for it. -/
theorem finishFiles_cases {c j : Nat} (step : s.finishFiles h c j = some s') :
    (∃ base, s.handlers.get? (c, j) = some (.listing base) ∧ s' = s.settleHandler c j
      ((h.listFiles base fun _ => false).map fun paths => toJson (FileService.listing paths))) ∨
    ∃ uri path, s.handlers.get? (c, j) = some (.reading uri path) ∧
      s' = s.settleHandler c j ((FileService.diskItem h uri path).map toJson) := by
  unfold finishFiles at step
  split at step
  · simp at step
  · split at step
    · rename_i base waits
      exact Or.inl ⟨base, waits, (Option.some.inj step).symm⟩
    · rename_i uri path waits
      exact Or.inr ⟨uri, path, waits, (Option.some.inj step).symm⟩
    · simp at step

theorem serves_finishFiles {c j : Nat} (step : s.finishFiles h c j = some s') : Serves h s h s' := by
  have settled : ∀ result, Serves h s h (s.settleHandler c j result) := by
    intro result
    unfold settleHandler
    split <;> exact serves_finishHandler c j _ s.registry rfl
  rcases finishFiles_cases step with ⟨base, -, rfl⟩ | ⟨uri, path, -, rfl⟩ <;> exact settled _

theorem serves_stepNotification (c : Nat) (n : Notification) :
    Serves h s (s.stepNotification h c n).1 (s.stepNotification h c n).2 := by
  have ends : ∀ {h'}, h'.documents = h.documents →
      Serves h s h' (s.onConnection c (·.finishHandling)) :=
    fun documents => serves_finishHandling c s.passing documents
  unfold stepNotification
  split
  · split
    · exact serves_finishHandling c _ rfl
    · split
      · exact serves_keeping s.registry s.handlers _ _ rfl
      · exact ends rfl
  · unfold logMessage
    split
    · exact ends rfl
    · exact ends rfl
  · unfold logMessage
    split
    · exact ends rfl
    · exact ends rfl
  · exact ends rfl

theorem serves_stepReader {c : Nat} (step : s.stepReader h c = some (h', s')) :
    Serves h s h' s' := by
  simp only [stepReader] at step
  split at step
  · rename_i n _
    have noticed := serves_stepNotification (h := h) (s := s) c n
    obtain ⟨rfl, rfl⟩ := Prod.mk.inj (Option.some.inj step)
    exact noticed
  · obtain ⟨connection, read, same⟩ := Option.map_eq_some_iff.mp step
    obtain ⟨rfl, rfl⟩ := Prod.mk.inj same
    exact serves_onConnection c (Connection.stepRead_effect read) rfl

end LanguageClient.Session
