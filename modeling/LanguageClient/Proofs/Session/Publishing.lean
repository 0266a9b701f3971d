import LanguageClient.Proofs.Session.Run
/-!
# Diagnostics of a server

A server publishes the diagnostics of a document by a notification.  The read loop handles it in two
steps: it takes the diagnostics into the session, and then it hands them to the host.  Between the two,
others may take steps.

`publishing?` says which of the two a read loop does next, and `Publishes` what comes of it.  Whatever
else happens leaves the diagnostics of the session and of the host as they are (`step_publishes`); a
notification whose parameters cannot be read is no exception.
-/

namespace LanguageClient

/-- What a read loop does next with diagnostics that its server has published. -/
inductive Publishing where
  /-- The one of a connection takes them into the session. -/
  | takes (c : Nat) (params : PublishDiagnosticsParams)
  /-- It hands them to the host. -/
  | hands (c : Nat) (params : PublishDiagnosticsParams)
  deriving DecidableEq

/-- The diagnostics of a document take the place of those that there were. -/
def PublishDiagnosticsParams.putInto (t : Table String (List Diagnostic)) (p : PublishDiagnosticsParams) :
    Table String (List Diagnostic) :=
  t.put p.uri p.diagnostics

namespace Session

variable {now : Nat} {h h' h₁ : Host} {s s' s₁ : Session} {c j t : Nat} {task task' : Task}

/-- What the read loop of a connection does next with diagnostics, if anything. -/
def publishing? (s : Session) (c : Nat) : Option Publishing :=
  match (s.connection c).readPhase with
  | .handling n =>
    if n.method = "textDocument/publishDiagnostics" then
      match s.passing.get? c with
      | some params => some (.hands c params)
      | none =>
        (readParams n.params : Except ClientError PublishDiagnosticsParams).toOption.map (.takes c)
    else none
  | _ => none

/-- Where there is no connection, nothing is published. -/
theorem publishing?_eq_none (outside : s.connections.length ≤ c) : s.publishing? c = none := by
  simp [publishing?, connection, List.getElem?_eq_none outside]

/-! ## What stays -/

/-- The diagnostics of the host and of the session stay as they are, and so does what is about to be
    handed to the host. -/
structure DiagnosticsKept (h : Host) (s : Session) (h' : Host) (s' : Session) : Prop where
  collected : h'.diagnostics = h.diagnostics
  kept : s'.diagnostics = s.diagnostics
  passing : s'.passing = s.passing

namespace DiagnosticsKept

theorem refl (h : Host) (s : Session) : DiagnosticsKept h s h s :=
  ⟨rfl, rfl, rfl⟩

theorem trans (first : DiagnosticsKept h s h₁ s₁) (next : DiagnosticsKept h₁ s₁ h' s') :
    DiagnosticsKept h s h' s' :=
  ⟨next.collected.trans first.collected, next.kept.trans first.kept, next.passing.trans first.passing⟩

end DiagnosticsKept

theorem diagnostics_prompt (h : Host) (message : String) (actions : List String) :
    (h.prompt message actions).2.diagnostics = h.diagnostics := by
  rw [h.prompt_eq]

/-! ## Tasks -/

theorem TeardownStep.diagnosticsKept {p p' : Teardown} (step : TeardownStep s p s' p') (h : Host) :
    DiagnosticsKept h s h s' := by
  cases step <;> exact ⟨rfl, rfl, rfl⟩

theorem Called.diagnosticsKept {call call' : Call} (step : Called now s₁ c call s' call')
    (before : DiagnosticsKept h s h s₁) : DiagnosticsKept h s h s' := by
  obtain ⟨connection, rfl⟩ := step.eq_setConnection
  exact before.trans ⟨rfl, rfl, rfl⟩

theorem Concluded.diagnosticsKept {attempt : Nat} {result : Except ClientError Json} {p : StartPhase}
    (next : Concluded now h s c attempt result h' s' p) : DiagnosticsKept h s h' s' := by
  cases next with
  | prompted => exact ⟨diagnostics_prompt h _ _, rfl, rfl⟩
  | _ => exact ⟨rfl, rfl, rfl⟩

theorem StartStep.diagnosticsKept {p p' : StartPhase} (step : StartStep now h s t p h' s' p') :
    DiagnosticsKept h s h' s' := by
  cases step with
  | published c _ call begun | retried c attempt _ _ call place begun =>
    exact begun.diagnosticsKept ⟨rfl, rfl, rfl⟩
  | called c attempt call _ call' unanswered step => exact step.diagnosticsKept (.refl h s)
  | concluded c attempt call result _ _ _ ended next => exact next.diagnosticsKept
  | answered c attempt call s₁ call' result _ _ _ unanswered step ended next =>
    exact (step.diagnosticsKept (.refl h s)).trans next.diagnosticsKept
  | listed c _ _ next | announced c params rest _ _ can next => cases next <;> exact ⟨rfl, rfl, rfl⟩
  | tore e t _ t' step => exact step.diagnosticsKept h
  | failed e t s₁ step | failedQuietly e t s₁ step | failedLate e t s₁ step =>
    exact (step.diagnosticsKept h).trans ⟨rfl, rfl, rfl⟩
  | _ => exact ⟨rfl, rfl, rfl⟩

/-- No task changes the diagnostics. -/
theorem TaskStep.diagnosticsKept (step : TaskStep now h s t task h' s' task') :
    DiagnosticsKept h s h' s' := by
  cases step with
  | start p _ _ p' step => exact step.diagnosticsKept
  | stop p _ p' step =>
    cases step with
    | asked c _ call free begun => exact begun.diagnosticsKept ⟨rfl, rfl, rfl⟩
    | called c call _ call' unanswered step => exact step.diagnosticsKept (.refl h s)
    | tore t _ t' step => exact step.diagnosticsKept h
    | stopped t _ step => exact (step.diagnosticsKept h).trans ⟨rfl, rfl, rfl⟩
    | _ => exact ⟨rfl, rfl, rfl⟩
  | watch c p _ _ p' step =>
    cases step with
    | tore t _ t' step => exact step.diagnosticsKept h
    | _ => exact ⟨rfl, rfl, rfl⟩
  | event e p _ p' step =>
    cases step with
    | ahead e c params _ _ can next =>
      rcases next with ⟨uri, reason, -, -, rfl⟩ | ⟨uri, text, -, -, rfl⟩ | ⟨-, rfl⟩ <;>
        exact ⟨rfl, rfl, rfl⟩
    | _ => exact ⟨rfl, rfl, rfl⟩
  | delivery uri generation deadline p _ p' step => cases step <;> exact ⟨rfl, rfl, rfl⟩
  | query q p _ p' step =>
    cases step with
    | ahead c _ _ _ place next =>
      cases next with
      | flushed => exact ⟨rfl, rfl, rfl⟩
      | asked _ call nothing begun => exact begun.diagnosticsKept ⟨rfl, rfl, rfl⟩
    | wrote c params _ call can begun => exact begun.diagnosticsKept ⟨rfl, rfl, rfl⟩
    | called c call _ call' unanswered step => exact step.diagnosticsKept (.refl h s)
    | _ => exact ⟨rfl, rfl, rfl⟩
  | request method params cancelled p _ p' step =>
    cases step with
    | asked c _ call current begun => exact begun.diagnosticsKept ⟨rfl, rfl, rfl⟩
    | called c call _ call' unanswered step => exact step.diagnosticsKept (.refl h s)
    | _ => exact ⟨rfl, rfl, rfl⟩

/-! ## Handlers -/

theorem diagnosticsKept_withParams {α : Type} (c j : Nat) (params : Except ClientError α) {go : α → Session}
    (goes : ∀ a, DiagnosticsKept h s h (go a)) : DiagnosticsKept h s h (s.withParams c j params go) := by
  cases params with
  | ok a => exact goes a
  | error e => exact ⟨rfl, rfl, rfl⟩

theorem diagnosticsKept_beginHandler (h : Host) (s : Session) (c j : Nat) (r : Request) :
    DiagnosticsKept h s (s.beginHandler h c j r).1 (s.beginHandler h c j r).2 := by
  unfold beginHandler
  split
  · exact diagnosticsKept_withParams c j _ fun _ => ⟨rfl, rfl, rfl⟩
  · exact diagnosticsKept_withParams c j _ fun _ => ⟨rfl, rfl, rfl⟩
  · exact ⟨rfl, rfl, rfl⟩
  · exact ⟨diagnostics_prompt h _ _, rfl, rfl⟩
  · simp only [beginListing]
    split
    · exact ⟨rfl, rfl, rfl⟩
    · refine diagnosticsKept_withParams c j _ fun params => ?_
      split <;> exact ⟨rfl, rfl, rfl⟩
  · simp only [beginContent]
    split
    · exact ⟨rfl, rfl, rfl⟩
    · exact diagnosticsKept_withParams c j _ fun _ => ⟨rfl, rfl, rfl⟩
  · exact ⟨rfl, rfl, rfl⟩

theorem diagnosticsKept_continueHandler {cancelled : Bool} {p : HandlerPhase}
    (step : s.continueHandler h c j cancelled p = some s') : DiagnosticsKept h s h s' := by
  unfold continueHandler at step
  repeat' split at step
  all_goals first
    | cases step; exact ⟨rfl, rfl, rfl⟩
    | simp at step

theorem diagnosticsKept_stepHandler (step : s.stepHandler h c j = some (h', s')) :
    DiagnosticsKept h s h' s' := by
  simp only [stepHandler, Option.bind_eq_bind] at step
  obtain ⟨job, -, step⟩ := Option.bind_eq_some_iff.mp step
  obtain ⟨-, -, step⟩ := Option.bind_eq_some_iff.mp step
  split at step
  · have begun := diagnosticsKept_beginHandler h s c j job.request
    have same : s.beginHandler h c j job.request = (h', s') := Option.some.inj step
    rwa [same] at begun
  · obtain ⟨s₁, continued, same⟩ := Option.bind_eq_some_iff.mp step
    obtain ⟨rfl, rfl⟩ := by simpa using same
    exact diagnosticsKept_continueHandler continued

theorem diagnosticsKept_finishFiles (step : s.finishFiles h c j = some s') :
    DiagnosticsKept h s h s' := by
  have settled : ∀ result, DiagnosticsKept h s h (s.settleHandler c j result) := by
    intro result
    cases result <;> exact ⟨rfl, rfl, rfl⟩
  rcases finishFiles_cases step with ⟨base, -, rfl⟩ | ⟨uri, path, -, rfl⟩ <;> exact settled _

/-! ## The read loop -/

/-- What comes of diagnostics that a server has published. -/
inductive Publishes (h : Host) (s : Session) : Option Publishing → Host → Session → Prop where
  | nothing (h' : Host) (s' : Session) (kept : DiagnosticsKept h s h' s') : Publishes h s none h' s'
  /-- The session has the diagnostics, and is about to hand them to the host. -/
  | took (c : Nat) (params : PublishDiagnosticsParams) (s' : Session) (free : s.passing.get? c = none)
      (kept : s'.diagnostics = params.putInto s.diagnostics) (passing : s'.passing = s.passing.put c params) :
      Publishes h s (some (.takes c params)) h s'
  /-- The host has the diagnostics. -/
  | handed (c : Nat) (params : PublishDiagnosticsParams) (h' : Host) (s' : Session)
      (waiting : s.passing.get? c = some params) (collected : h'.diagnostics = params.putInto h.diagnostics)
      (kept : s'.diagnostics = s.diagnostics) (passing : s'.passing = s.passing.erase c) :
      Publishes h s (some (.hands c params)) h' s'

/-- Other notifications are not about diagnostics. -/
theorem diagnosticsKept_stepNotification {n : Notification}
    (other : n.method ≠ "textDocument/publishDiagnostics") :
    DiagnosticsKept h s (s.stepNotification h c n).1 (s.stepNotification h c n).2 := by
  unfold stepNotification logMessage
  split
  · rename_i publishes
    exact absurd publishes other
  all_goals (repeat' split) <;> exact ⟨rfl, rfl, rfl⟩

/-- A read loop that handles no notification reads on, and is not about to do anything with diagnostics. -/
theorem stepReader_of_others (others : ∀ n, (s.connection c).readPhase ≠ .handling n) :
    s.stepReader h c = (s.connection c).stepRead.map (fun connection => (h, s.setConnection c connection)) ∧
    s.publishing? c = none := by
  cases phase : (s.connection c).readPhase with
  | handling n => exact absurd phase (others n)
  | _ => exact ⟨by simp only [stepReader, phase], by simp only [publishing?, phase]⟩

theorem publishing?_of_handling {n : Notification} (handles : (s.connection c).readPhase = .handling n) :
    s.publishing? c =
      if n.method = "textDocument/publishDiagnostics" then
        match s.passing.get? c with
        | some params => some (.hands c params)
        | none =>
          (readParams n.params : Except ClientError PublishDiagnosticsParams).toOption.map (.takes c)
      else none := by
  simp only [publishing?, handles]

/-- A step of a read loop does with diagnostics what it is about to do. -/
theorem stepReader_publishes (step : s.stepReader h c = some (h', s')) :
    Publishes h s (s.publishing? c) h' s' := by
  -- a loop that handles a notification may hand on diagnostics, no other does
  by_cases handles : ∃ n, (s.connection c).readPhase = .handling n
  · obtain ⟨n, handles⟩ := handles
    have noticed : s.stepNotification h c n = (h', s') := by
      simpa only [stepReader, handles, Option.some.injEq] using step
    rw [publishing?_of_handling handles]
    by_cases publishes : n.method = "textDocument/publishDiagnostics"
    · rw [if_pos publishes]
      simp only [stepNotification, publishes] at noticed
      -- what waits to be handed on goes first
      cases waits : s.passing.get? c with
      | some params =>
        obtain ⟨rfl, rfl⟩ := Prod.mk.inj (by simpa only [waits] using noticed)
        exact .handed c params _ _ waits rfl rfl rfl
      | none =>
        simp only [waits] at noticed
        cases read : (readParams n.params : Except ClientError PublishDiagnosticsParams) with
        | ok params =>
          obtain ⟨rfl, rfl⟩ := Prod.mk.inj (by simpa only [read] using noticed)
          exact .took c params _ waits rfl rfl
        | error e =>
          obtain ⟨rfl, rfl⟩ := Prod.mk.inj (by simpa only [read] using noticed)
          exact .nothing _ _ ⟨rfl, rfl, rfl⟩
    · have kept := diagnosticsKept_stepNotification (h := h) (s := s) (c := c) publishes
      rw [noticed] at kept
      rw [if_neg publishes]
      exact .nothing _ _ kept
  · obtain ⟨reads, nothing⟩ := stepReader_of_others (h := h) (not_exists.mp handles)
    rw [reads] at step
    rw [nothing]
    obtain ⟨connection, -, same⟩ := Option.map_eq_some_iff.mp step
    obtain ⟨rfl, rfl⟩ := Prod.mk.inj same
    exact .nothing _ _ ⟨rfl, rfl, rfl⟩

/-- A read loop that waits is not about to do anything with diagnostics. -/
theorem publishing?_of_waiting (waits : s.stepReader h c = none) : s.publishing? c = none := by
  refine (stepReader_of_others (h := h) fun n handles => ?_).2
  simp [stepReader, handles] at waits

end Session

namespace Scene

/-- What a move does with diagnostics, if anything. -/
def publishing? (d : Scene) : Move → Option Publishing
  | .act (.reader c) => d.session.publishing? c
  | _ => none

/-- **Diagnostics come from the server only.**  Every move does with diagnostics what it is about to do:
    a read loop takes and hands on what its server has published, and nobody else touches them. -/
theorem step_publishes {d : Scene} (covered : d.session.sync.Covered) (move : Move) :
    Session.Publishes d.host d.session (d.publishing? move) (d.step move).host (d.step move).session := by
  -- of all moves only a turn of a read loop does anything
  have stays : Session.Publishes d.host d.session none d.host d.session := .nothing _ _ (.refl _ _)
  cases move with
  | act actor =>
    cases actor with
    | task t =>
      rcases step_task covered t with same | ⟨task, h, s₁, task', -, step, same⟩ <;> rw [same]
      · exact stays
      · exact .nothing _ _ (step.diagnosticsKept.trans ⟨rfl, rfl, rfl⟩)
    | reader c =>
      simp only [publishing?, step, Session.step]
      split
      · cases read : d.session.stepReader d.host c with
        | none =>
          rw [Session.publishing?_of_waiting read]
          exact stays
        | some r => exact Session.stepReader_publishes read
      · rename_i outside
        rw [Session.publishing?_eq_none (Nat.le_of_not_lt outside)]
        exact stays
    | readOn c =>
      simp only [publishing?, step, Session.step]
      split
      · cases (d.session.connection c).readOn with
        | none => exact stays
        | some connection => exact .nothing _ _ ⟨rfl, rfl, rfl⟩
      · exact stays
    | job c j =>
      simp only [publishing?, step, Session.step]
      cases (d.session.connection c).stepJob j with
      | none => exact stays
      | some connection => exact .nothing _ _ ⟨rfl, rfl, rfl⟩
    | handler c j =>
      simp only [publishing?, step, Session.step]
      cases handled : d.session.stepHandler d.host c j with
      | none => exact stays
      | some r => exact .nothing _ _ (Session.diagnosticsKept_stepHandler handled)
  | finishFiles c j =>
    simp only [publishing?, step]
    cases finished : d.session.finishFiles d.host c j with
    | none => exact stays
    | some s => exact .nothing _ _ (Session.diagnosticsKept_finishFiles finished)
  | fire t =>
    simp only [publishing?, step, Session.cancelRequest]
    split <;> exact .nothing _ _ ⟨rfl, rfl, rfl⟩
  | editDocument uri text =>
    simp only [publishing?, step, Host.edit]
    cases d.host.document? uri <;> exact .nothing _ _ ⟨rfl, rfl, rfl⟩
  | _ => exact .nothing _ _ ⟨rfl, rfl, rfl⟩

end Scene

end LanguageClient
