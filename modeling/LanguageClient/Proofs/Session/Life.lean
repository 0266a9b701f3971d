import LanguageClient.Proofs.Connection.Effect
import LanguageClient.Session.Lifecycle
/-!
# Steps in the life of a session

What a start, a stop, a watch and the end of what a session holds can do in one step.  Each step has
an effect listed in `StartStep`, `StopStep`, `WatchStep` or `TeardownStep`, with all its conditions;
`stepStart_cases` and its like are the only proofs that look into the steps.

A step of a call is one of `Called`, and what is written on a connection is `writes`, here and for
the tasks that tell of documents.
-/

namespace LanguageClient.Session

variable {now : Nat} {h h' : Host} {s s' : Session}

/-! ## Connections -/

@[simp] theorem setConnection_connection (s : Session) (c : Nat) :
    s.setConnection c (s.connection c) = s := by
  have same : s.connections.set c (s.connection c) = s.connections := by
    by_cases inside : c < s.connections.length
    · simp [connection, inside]
    · exact List.set_eq_of_length_le (Nat.le_of_not_lt inside)
  simp [setConnection, same]

theorem onConnection_onConnection (s : Session) (c : Nat) (f g : Connection → Connection) :
    (s.onConnection c f).onConnection c g = s.onConnection c fun connection => g (f connection) := by
  by_cases inside : c < s.connections.length
  · simp [onConnection, setConnection, connection, inside]
  · have outside := Nat.le_of_not_lt inside
    simp [onConnection, setConnection, List.set_eq_of_length_le outside]

/-- A session in which a message was written on a connection. -/
def writes (s : Session) (c : Nat) (m : Message) : Session :=
  s.onConnection c fun connection => { connection with sent := connection.sent ++ [m] }

/-- A notification is written, or the connection cannot be written on. -/
theorem notify_cases (s : Session) (c : Nat) (n : Notification) :
    ((s.connection c).canWrite = true ∧ s.notify c n = .ok (s.writes c (.notification n))) ∨
    ((s.connection c).canWrite = false ∧ ∃ e, s.notify c n = .error e) := by
  rcases (s.connection c).write_cases (.notification n) with ⟨can, wrote⟩ | ⟨cannot, failed⟩
  · exact Or.inl ⟨can, by simp [notify, wrote, Except.map, writes, onConnection]⟩
  · refine Or.inr ⟨cannot, ?_⟩
    rcases failed with failed | failed
    · exact ⟨_, by simp only [notify, failed, Except.map]; rfl⟩
    · exact ⟨_, by simp only [notify, failed, Except.map]; rfl⟩

/-- A step of a call on a connection of the session. -/
inductive Called (now : Nat) (s : Session) (c : Nat) (call : Call) : Session → Call → Prop where
  | step (connection : Connection) (phase : CallPhase)
      (step : Call.Step now (s.connection c) call connection phase) :
      Called now s c call (s.setConnection c connection) { call with phase }

theorem stepCall_cases {call call' : Call} (step : s.stepCall now c call = some (s', call')) :
    Called now s c call s' call' := by
  obtain ⟨⟨connection, call₁⟩, stepped, same⟩ := Option.map_eq_some_iff.mp step
  obtain ⟨phase, rfl, effect⟩ := Call.step_effect stepped
  obtain ⟨rfl, rfl⟩ := Prod.mk.inj same
  exact .step connection phase effect

/-- A call that begins takes its first step. -/
theorem beginCall_cases (now : Nat) (s : Session) (c : Nat) {call : Call}
    (fresh : call.phase = .entering) :
    Called now s c call (s.beginCall now c call).1 (s.beginCall now c call).2 := by
  cases stepped : s.stepCall now c call with
  | some result => simpa [beginCall, stepped] using stepCall_cases stepped
  | none =>
    -- the first step of a call never waits
    simp only [stepCall, Option.map_eq_none_iff, Call.step, fresh] at stepped
    split at stepped
    · simp at stepped
    · split at stepped <;> simp at stepped

/-! ## Taking down -/

inductive TeardownStep (s : Session) : Teardown → Session → Teardown → Prop where
  | unused (none : s.current = none) : TeardownStep s .detaching s .resetting
  | detached (c : Nat) (used : s.current = some c) :
      TeardownStep s .detaching ({ s with current := none }.onConnection c (·.beginClose))
        (.closing c .unwriting)
  | closed (c : Nat) (p p' : Closing) (connection : Connection) (t : Teardown)
      (step : (s.connection c).stepClose p = some (connection, p'))
      (next : t = .resetting ∨ t = .closing c p') :
      TeardownStep s (.closing c p) (s.setConnection c connection) t
  | closedBefore (c : Nat) : TeardownStep s (.closing c .ended) s .resetting
  | reset (free : s.syncOwner = none) :
      TeardownStep s .resetting { s with sync := s.sync.reset } .clearing
  | cleared : TeardownStep s .clearing { s with registry := s.registry.clear } .forgetting
  | forgot : TeardownStep s .forgetting { s with capabilities := none } .reaping
  | reaped : TeardownStep s .reaping { s with hasProcess := false } .ended

theorem stepTeardown_cases {t t' : Teardown} (step : s.stepTeardown t = some (s', t')) :
    TeardownStep s t s' t' := by
  cases t with
  | detaching =>
    simp only [stepTeardown] at step
    split at step
    · rename_i unused
      obtain ⟨rfl, rfl⟩ := by simpa using step
      exact .unused unused
    · rename_i c used
      obtain ⟨rfl, rfl⟩ := by simpa using step
      exact .detached c used
  | closing c p =>
    simp only [stepTeardown] at step
    split at step
    · rename_i connection closed
      obtain ⟨rfl, rfl⟩ := by simpa using step
      exact .closed c p _ connection _ closed (Or.inl rfl)
    · rename_i connection p' _ closed
      obtain ⟨rfl, rfl⟩ := by simpa using step
      exact .closed c p p' connection _ closed (Or.inr rfl)
    · obtain ⟨rfl, rfl, rfl⟩ := by simpa using step
      exact .closedBefore c
  | resetting =>
    simp only [stepTeardown] at step
    split at step
    · simp at step
    · rename_i free
      obtain ⟨rfl, rfl⟩ := by simpa using step
      exact .reset (by simpa using free)
  | clearing =>
    obtain ⟨rfl, rfl⟩ := by simpa [stepTeardown] using step
    exact .cleared
  | forgetting =>
    obtain ⟨rfl, rfl⟩ := by simpa [stepTeardown] using step
    exact .forgot
  | reaping =>
    obtain ⟨rfl, rfl⟩ := by simpa [stepTeardown] using step
    exact .reaped
  | ended => simp [stepTeardown] at step

/-! ## Stopping -/

/-- The request by which a server is asked to shut down. -/
def shutdownCall : Call :=
  { method := "shutdown", params := none }

inductive StopStep (now : Nat) (s : Session) : StopPhase → Session → StopPhase → Prop where
  | late (past : s.state = .stopping ∨ s.state = .stopped) : StopStep now s .entering s .ended
  | begun (live : s.state ≠ .stopping ∧ s.state ≠ .stopped) :
      StopStep now s .entering { s with state := .stopping } (.detaching s.state)
  | detached (previous : SessionState) :
      StopStep now s (.detaching previous) { s with current := none }
        (.resetting previous s.current)
  | resetAlone (previous : SessionState) (free : s.syncOwner = none) :
      StopStep now s (.resetting previous none) { s with sync := s.sync.reset } (.tearing .detaching)
  | asked (c : Nat) (s₁ : Session) (call : Call) (free : s.syncOwner = none)
      (begun : Called now { s with sync := s.sync.reset } c shutdownCall s₁ call) :
      StopStep now s (.resetting .running (some c)) s₁ (.asking c call)
  | unasked (previous : SessionState) (c : Nat) (other : previous ≠ .running)
      (free : s.syncOwner = none) :
      StopStep now s (.resetting previous (some c))
        ({ s with sync := s.sync.reset }.onConnection c (·.beginClose)) (.closing c .unwriting)
  | answered (c : Nat) (call : Call) (past : call.result?.isSome = true) :
      StopStep now s (.asking c call) s (.exiting c)
  | called (c : Nat) (call : Call) (s₁ : Session) (call' : Call) (unanswered : call.result? = none)
      (step : Called now s c call s₁ call') :
      StopStep now s (.asking c call) s₁
        (if call'.result?.isSome then .exiting c else .asking c call')
  | exited (c : Nat) (free : s.busy c = false) :
      StopStep now s (.exiting c)
        ((s.onConnection c (·.tryWrite (.notification { method := "exit" }))).onConnection c
          (·.beginClose))
        (.closing c .unwriting)
  | closed (c : Nat) (p p' : Closing) (connection : Connection) (next : StopPhase)
      (step : (s.connection c).stepClose p = some (connection, p'))
      (place : next = .tearing .detaching ∨ next = .closing c p') :
      StopStep now s (.closing c p) (s.setConnection c connection) next
  | closedBefore (c : Nat) : StopStep now s (.closing c .ended) s (.tearing .detaching)
  | tore (t : Teardown) (s₁ : Session) (t' : Teardown) (step : TeardownStep s t s₁ t')
      (more : t' ≠ .ended) : StopStep now s (.tearing t) s₁ (.tearing t')
  | stopped (t : Teardown) (s₁ : Session) (step : TeardownStep s t s₁ .ended) :
      StopStep now s (.tearing t)
        { s₁ with state := if s₁.state = .stopping then .stopped else s₁.state } .ended

theorem stepStop_cases {p p' : StopPhase} (step : s.stepStop now p = some (s', p')) :
    StopStep now s p s' p' := by
  cases p with
  | entering =>
    simp only [stepStop] at step
    split at step
    · rename_i past
      obtain ⟨rfl, rfl⟩ := by simpa using step
      exact .late (Or.inl past)
    · rename_i past
      obtain ⟨rfl, rfl⟩ := by simpa using step
      exact .late (Or.inr past)
    · rename_i live live'
      obtain ⟨rfl, rfl⟩ := by simpa using step
      exact .begun ⟨live, live'⟩
  | detaching previous =>
    obtain ⟨rfl, rfl⟩ := by simpa [stepStop] using step
    exact .detached previous
  | resetting previous c =>
    simp only [stepStop] at step
    split at step
    · simp at step
    · rename_i free
      -- nobody has the lock on the documents, so the stop may reset them
      have free : s.syncOwner = none := by simpa using free
      cases c with
      | none =>
        obtain ⟨rfl, rfl⟩ := by simpa using step
        exact .resetAlone previous free
      | some c =>
        simp only at step
        split at step
        · rename_i running
          subst running
          simp only [Option.some.injEq, Prod.mk.injEq] at step
          obtain ⟨rfl, rfl⟩ := step
          exact .asked c _ _ free (beginCall_cases now _ c rfl)
        · rename_i other
          obtain ⟨rfl, rfl⟩ := by simpa [beginClosing] using step
          exact .unasked previous c other free
  | asking c call =>
    simp only [stepStop] at step
    split at step
    · rename_i past
      obtain ⟨rfl, rfl⟩ := by simpa using step
      exact .answered c call past
    · rename_i unanswered
      obtain ⟨⟨s₁, call'⟩, stepped, same⟩ := Option.map_eq_some_iff.mp step
      have called := StopStep.called c call s₁ call' (by simpa using unanswered)
        (stepCall_cases stepped)
      simp only at same
      split at same
      · rename_i past
        obtain ⟨rfl, rfl⟩ := by simpa using same
        simpa [past] using called
      · rename_i waits
        obtain ⟨rfl, rfl⟩ := by simpa using same
        simpa [waits] using called
  | exiting c =>
    obtain ⟨free, rfl, rfl⟩ := by simpa [stepStop, beginClosing] using step
    exact .exited c free
  | closing c p =>
    simp only [stepStop] at step
    split at step
    · rename_i connection closed
      obtain ⟨rfl, rfl⟩ := by simpa using step
      exact .closed c p _ connection _ closed (Or.inl rfl)
    · rename_i connection p' _ closed
      obtain ⟨rfl, rfl⟩ := by simpa using step
      exact .closed c p p' connection _ closed (Or.inr rfl)
    · obtain ⟨rfl, rfl, rfl⟩ := by simpa using step
      exact .closedBefore c
  | tearing t =>
    simp only [stepStop] at step
    obtain ⟨⟨s₁, t'⟩, stepped, same⟩ := Option.map_eq_some_iff.mp step
    have tore := stepTeardown_cases stepped
    simp only at same
    split at same
    · obtain ⟨rfl, rfl⟩ := by simpa using same
      exact .stopped t s₁ tore
    · rename_i more
      obtain ⟨rfl, rfl⟩ := by simpa using same
      exact .tore t s₁ t' tore more
  | ended => simp [stepStop] at step

/-! ## Watching -/

inductive WatchStep (h : Host) (s : Session) (c : Nat) :
    WatchPhase → Host → Session → WatchPhase → Prop where
  | noticed (past : (s.connection c).terminated = true) (running : s.state = .running) :
      WatchStep h s c .waiting h { s with state := .stopped } (.tearing .detaching)
  | idle (past : (s.connection c).terminated = true) (other : s.state ≠ .running) :
      WatchStep h s c .waiting h s .ended
  | tore (t : Teardown) (s₁ : Session) (t' : Teardown) (step : TeardownStep s t s₁ t') :
      WatchStep h s c (.tearing t) h s₁ (if t' = .ended then .reporting else .tearing t')
  | reported :
      WatchStep h s c .reporting
        (h.showError (s.name ++ " language server terminated unexpectedly")) s .ended

theorem stepWatch_cases {p p' : WatchPhase} (step : s.stepWatch h c p = some (h', s', p')) :
    WatchStep h s c p h' s' p' := by
  cases p with
  | waiting =>
    simp only [stepWatch] at step
    split at step
    · rename_i past
      split at step
      · rename_i running
        obtain ⟨rfl, rfl, rfl⟩ := by simpa using step
        exact .noticed past running
      · rename_i other
        obtain ⟨rfl, rfl, rfl⟩ := by simpa using step
        exact .idle past other
    · simp at step
  | tearing t =>
    simp only [stepWatch] at step
    obtain ⟨⟨s₁, t'⟩, stepped, same⟩ := Option.map_eq_some_iff.mp step
    have tore := WatchStep.tore (h := h) (c := c) t s₁ t' (stepTeardown_cases stepped)
    simp only at same
    split at same
    · obtain ⟨rfl, rfl, rfl⟩ := by simpa using same
      exact tore
    · rename_i more
      obtain ⟨rfl, rfl, rfl⟩ := by simpa using same
      rwa [if_neg more] at tore
  | reporting =>
    obtain ⟨rfl, rfl, rfl⟩ := by simpa [stepWatch] using step
    exact .reported
  | ended => simp [stepWatch] at step

end LanguageClient.Session
