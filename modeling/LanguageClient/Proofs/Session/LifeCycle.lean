import LanguageClient.Proofs.Session.States
import LanguageClient.Proofs.Session.Tables
/-!
# The life cycle of a session

However the starts, the stops, the server and the watches take turns, the state of a session goes on
as `SessionState.Next` says and no other way, and only a start whose own `initialize` was answered
with a result that can be read makes the session running (`life_cycle`).

A start fetches a result from the table of its connection.  What lies there for its call was assigned
to that call (`callsKept_after`), so the answer can be traced back to the moment at which the read
loop had it (`Traced`).
-/

namespace LanguageClient

/-! ## What may follow what -/

namespace SessionState

/-- A session that stops goes on to be stopped, and a stopped one stays so. -/
theorem Next.of_stopping {state state' : SessionState} (next : Next state state') :
    (state = .stopping → state' = .stopped) ∧ state ≠ .stopped := by
  cases next <;> simp

end SessionState

/-! ## Starts and their requests -/

def Task.isStart : Task → Bool
  | .start _ => true
  | _ => false

theorem Task.eq_start_of_isStart {task : Task} (start : task.isStart = true) :
    ∃ p, task = .start p := by
  cases task with
  | start p => exact ⟨p, rfl⟩
  | _ => simp [isStart] at start

/-- A request `initialize`, which has no result while a start holds it. -/
structure Initializes (call : Call) : Prop where
  method : call.method = "initialize"
  unanswered : ∀ v, call.result? ≠ some (.ok v)

namespace Session

variable {now : Nat} {h h' : Host} {s s' : Session} {t c : Nat} {task task' : Task}

theorem TaskStep.isStart (step : TaskStep now h s t task h' s' task') :
    task'.isStart = task.isStart := by
  cases step <;> rfl

theorem Called.method {call call' : Call} (step : Called now s c call s' call') :
    call'.method = call.method := by
  cases step
  rfl

/-- A call that ends with a result has fetched it from the table. -/
theorem Called.answered {call call' : Call} {v : Json} (step : Called now s c call s' call')
    (ended : call'.result? = some (.ok v)) :
    ∃ k response, call.tabled? = some k ∧ (s.connection c).replies.get? k = some response ∧
      response.outcome = .ok v := by
  cases step with
  | step connection phase step =>
    cases step with
    | answered k deadline response place reply =>
      refine ⟨k, response, by simp [Call.tabled?, place], reply, ?_⟩
      unfold Call.outcomeOf at ended
      cases outcome : response.outcome with
      | ok v' => simpa [Call.result?, outcome] using ended
      | error e =>
        simp only [Call.result?, outcome] at ended
        split at ended
        · simp at ended
        · split at ended <;> simp at ended
    | _ => simp [Call.result?] at ended

theorem Called.initializes {h₀ : Host} {s₀ : Session} {call : Call}
    (begun : Called now s c (initializeCall h₀ s₀) s' call) : Initializes call := by
  refine ⟨begun.method, fun v ended => ?_⟩
  obtain ⟨k, response, tabled, -⟩ := begun.answered ended
  simp [initializeCall, Call.tabled?] at tabled

/-- A start sends nothing but `initialize`, and keeps no result of it. -/
theorem StartStep.initializes {p : StartPhase} {attempt : Nat} {call : Call}
    (step : StartStep now h s t p h' s' (.initializing c attempt call))
    (before : ∀ attempt call, p = .initializing c attempt call → Initializes call) :
    Initializes call := by
  generalize place : StartPhase.initializing c attempt call = p' at step
  cases step with
  | published c' _ call' begun =>
    obtain ⟨rfl, rfl, rfl⟩ := by simpa using place
    exact begun.initializes
  | retried c' attempt' _ _ call' _ begun =>
    obtain ⟨rfl, rfl, rfl⟩ := by simpa using place
    exact begun.initializes
  | called c' attempt' call₀ _ call' unanswered step waits =>
    obtain ⟨rfl, rfl, rfl⟩ := by simpa using place
    exact ⟨step.method.trans (before _ _ rfl).method, by simp [waits]⟩
  | connected outcome rest _ next =>
    rcases next with rfl | rfl | ⟨reason, rfl⟩ <;> simp [failStart] at place
  | concluded _ _ _ _ _ _ _ _ next | answered _ _ _ _ _ _ _ _ _ _ _ _ next =>
    cases next <;> simp [failStart] at place
  | listed _ _ _ next | announced _ _ _ _ _ _ next => cases next <;> simp at place
  | _ => simp [failStart] at place

/-- A start records the result that its `initialize` has fetched from the table. -/
theorem StartStep.recorded_result {p : StartPhase} {r : InitializeResult}
    (step : StartStep now h s t p h' s' (.recording c r))
    (before : ∀ attempt call, p = .initializing c attempt call → Initializes call) :
    ∃ attempt call k response v, p = .initializing c attempt call ∧ call.tabled? = some k ∧
      (s.connection c).replies.get? k = some response ∧ response.outcome = .ok v ∧
      (ofJson v : Decoded InitializeResult) = .ok r := by
  -- the result of the call, from which the record was read
  have read : ∀ {result : Except ClientError Json},
      (Call.decode result : Except ClientError InitializeResult) = .ok r →
      ∃ v, result = .ok v ∧ (ofJson v : Decoded InitializeResult) = .ok r := by
    intro result decoded
    cases result with
    | error e => simp [Call.decode, Except.bind] at decoded
    | ok v =>
      refine ⟨v, rfl, ?_⟩
      cases value : (ofJson v : Decoded InitializeResult) with
      | error e => simp [Call.decode, Except.bind, Except.mapError, value] at decoded
      | ok r' => simpa [Call.decode, Except.bind, Except.mapError, value] using decoded
  generalize place : StartPhase.recording c r = p' at step
  cases step with
  | concluded c' attempt call result _ _ _ ended next =>
    cases next with
    | succeeded r' decoded =>
      obtain ⟨rfl, rfl⟩ := by simpa using place
      obtain ⟨v, rfl, -⟩ := read decoded
      exact absurd ended ((before attempt call rfl).unanswered v)
    | _ => simp [failStart] at place
  | answered c' attempt call s₁ call' result _ _ _ unanswered step ended next =>
    cases next with
    | succeeded r' decoded =>
      obtain ⟨rfl, rfl⟩ := by simpa using place
      obtain ⟨v, rfl, value⟩ := read decoded
      obtain ⟨k, response, tabled, reply, outcome⟩ := step.answered ended
      exact ⟨attempt, call, k, response, v, rfl, tabled, reply, outcome, value⟩
    | _ => simp [failStart] at place
  | connected outcome rest _ next =>
    rcases next with rfl | rfl | ⟨reason, rfl⟩ <;> simp [failStart] at place
  | listed _ _ _ next | announced _ _ _ _ _ _ next => cases next <;> simp at place
  | _ => simp [failStart] at place

/-- A start configures the documents by the result that it has recorded. -/
theorem StartStep.configured {p : StartPhase} {kind : SyncKind}
    (step : StartStep now h s t p h' s' (.configuring c kind)) :
    ∃ r : InitializeResult, p = .recording c r ∧ kind = r.capabilities.syncKind := by
  generalize place : StartPhase.configuring c kind = p' at step
  cases step with
  | recorded c' r =>
    obtain ⟨rfl, rfl⟩ := by simpa using place
    exact ⟨r, rfl, rfl⟩
  | connected outcome rest _ next =>
    rcases next with rfl | rfl | ⟨reason, rfl⟩ <;> simp [failStart] at place
  | concluded _ _ _ _ _ _ _ _ next | answered _ _ _ _ _ _ _ _ _ _ _ _ next =>
    cases next <;> simp [failStart] at place
  | listed _ _ _ next | announced _ _ _ _ _ _ next => cases next <;> simp at place
  | _ => simp [failStart] at place

end Session

namespace Scene

variable {setup : Setup} {moves : List Move} {d d' : Scene} {t : Nat}

/-! ## Tasks keep their kinds -/

theorem Change.isStart {task : Task} (change : Change d d')
    (here : d.session.tasks[t]? = some task) :
    ∃ task', d'.session.tasks[t]? = some task' ∧ task'.isStart = task.isStart := by
  cases change with
  | stayed | edited | passed => exact ⟨task, here, rfl⟩
  | moved h s moved =>
    rcases moved.kept here with same | ⟨s₁, task', step, rfl, here'⟩
    · exact ⟨task, same, rfl⟩
    · exact ⟨task', here', step.isStart⟩
  | spawned new fresh =>
    have inside := (List.getElem?_eq_some_iff.mp here).1
    exact ⟨task, by simpa [Session.spawn, List.getElem?_append_left inside] using here, rfl⟩
  | fired i method params cancelled p place =>
    by_cases same : i = t
    · subst same
      have inside := (List.getElem?_eq_some_iff.mp place).1
      refine ⟨.request method params true p, by simp [Session.setTask, inside], ?_⟩
      obtain rfl : .request method params cancelled p = task := by simpa [place] using here
      rfl
    · exact ⟨task, by simpa [Session.setTask, List.getElem?_set_ne same] using here, rfl⟩

/-- What is a start was a start whenever it was there. -/
theorem isStart_before {before later : List Move} {p : StartPhase} {task : Task}
    (now : ((machine setup).after (before ++ later)).session.tasks[t]? = some (.start p))
    (here : ((machine setup).after before).session.tasks[t]? = some task) :
    ∃ q, task = .start q := by
  have kept : ∀ later : List Move, ∃ task',
      ((machine setup).after (before ++ later)).session.tasks[t]? = some task' ∧
        task'.isStart = task.isStart := by
    intro later
    induction later using List.reverseRecOn with
    | nil => exact ⟨task, by simpa using here, rfl⟩
    | append_singleton later move ih =>
      obtain ⟨task', here', same⟩ := ih
      rw [← List.append_assoc]
      obtain ⟨task'', here'', same'⟩ := (change_after (before ++ later) move).isStart here'
      exact ⟨task'', here'', same'.trans same⟩
  obtain ⟨task', here', same⟩ := kept later
  obtain rfl : .start p = task' := by simpa [now] using here'
  exact Task.eq_start_of_isStart same.symm

/-! ## The requests of starts -/

/-- A start stands where it stood, it is new, or it took a step. -/
theorem Change.start_at {p : StartPhase} (change : Change d d')
    (here' : d'.session.tasks[t]? = some (.start p)) :
    d.session.tasks[t]? = some (.start p) ∨ p = .locking ∨ ∃ q h' s',
      d.session.tasks[t]? = some (.start q) ∧
        Session.StartStep d.now d.host d.session t q h' s' p := by
  cases change.came here' with
  | stayed _ here => exact Or.inl here
  | called _ absent fresh =>
    cases fresh
    exact Or.inr (Or.inl rfl)
  | born _ absent born => cases born
  | stepped _ _ s here step result =>
    generalize d'.host = h' at step
    cases step with
    | start q _ _ _ step => exact Or.inr (Or.inr ⟨q, _, _, here, step⟩)

theorem initializes_after (moves : List Move) : ∀ (t c attempt : Nat) (call : Call),
    ((machine setup).after moves).session.tasks[t]? = some (.start (.initializing c attempt call)) →
    Initializes call := by
  refine run_changes (fun _ d => ∀ (t c attempt : Nat) (call : Call),
    d.session.tasks[t]? = some (.start (.initializing c attempt call)) → Initializes call) ?_ ?_ moves
  · simp [machine, Session.ofConfig]
  · intro moves move d d' before after change ih t c attempt call here'
    rcases change.start_at here' with same | place | ⟨q, h', s', here, step⟩
    · exact ih t c attempt call same
    · simp at place
    · exact step.initializes fun attempt' call' place => ih t c attempt' call' (place ▸ here)

/-- The read loop of a connection has an answer to the `initialize` of a start, and assigns it to that
    request next: a result that can be read. -/
def AnswersStart (d : Scene) (t c : Nat) (r : InitializeResult) : Prop :=
  ∃ attempt call k id response v,
    d.session.tasks[t]? = some (.start (.initializing c attempt call)) ∧
    call.method = "initialize" ∧ call.number? = some k ∧
    (d.session.connection c).readPhase = .settling id response ∧ id.asNumber = some k ∧
    k ∈ (d.session.connection c).pending ∧
    response.outcome = .ok v ∧ (ofJson v : Decoded InitializeResult) = .ok r

/-- What a start knows of the result of its `initialize` goes back to an answer to it. -/
def Traced (setup : Setup) (moves : List Move) (d : Scene) : Prop :=
  ∀ t c,
    (∀ r, d.session.tasks[t]? = some (.start (.recording c r)) →
      (machine setup).Once moves (·.AnswersStart t c r)) ∧
    ∀ kind, d.session.tasks[t]? = some (.start (.configuring c kind)) →
      ∃ r : InitializeResult, kind = r.capabilities.syncKind ∧
        (machine setup).Once moves (·.AnswersStart t c r)

theorem traced_after (moves : List Move) : Traced setup moves ((machine setup).after moves) := by
  refine run_changes (fun moves d => Traced setup moves d) ?_ ?_ moves
  · simp [machine, Session.ofConfig, Traced]
  · intro moves move d d' before after change ih t c
    constructor
    · intro r here'
      rcases change.start_at here' with same | place | ⟨q, h', s', here, step⟩
      · exact ((ih t c).1 r same).append [move]
      · simp at place
      · obtain ⟨attempt, call, k, response, v, rfl, tabled, reply, outcome, value⟩ :=
          step.recorded_result fun attempt call place =>
            initializes_after moves t c attempt call (by rw [before, ← place]; exact here)
        -- the response in the table was assigned to the call, for it holds a result
        have kept := @callsKept_after setup moves c
        rw [before] at kept
        have mine : Tabled (d.session.calls c) t k :=
          ⟨call, Session.calls_eq_some_iff.mpr ⟨_, here, rfl⟩, tabled⟩
        rcases kept.sourced t k response mine reply with once | ⟨connection, rfl⟩
        · obtain ⟨earlier, later, rfl, id, place, number, waits, call₀, calling, number₀⟩ := once
          refine Machine.Once.append ⟨earlier, later, rfl, ?_⟩ [move]
          obtain ⟨task, there, calls⟩ := Session.calls_eq_some_iff.mp calling
          obtain ⟨q, rfl⟩ := isStart_before (before ▸ here) there
          cases q with
          | initializing c' attempt₀ call' =>
            obtain ⟨rfl, rfl⟩ : c' = c ∧ call' = call₀ := by simpa [Task.call?] using calls
            exact ⟨attempt₀, call', k, id, response, v, there,
              (initializes_after earlier t c' attempt₀ call' there).method, number₀, place, number,
              waits, outcome, value⟩
          | _ => simp [Task.call?] at calls
        · simp [Connection.terminationResponse, Response.outcome, Response.failure] at outcome
    · intro kind here'
      rcases change.start_at here' with same | place | ⟨q, h', s', here, step⟩
      · obtain ⟨r, rfl, once⟩ := (ih t c).2 kind same
        exact ⟨r, rfl, once.append [move]⟩
      · simp at place
      · obtain ⟨r, rfl, rfl⟩ := step.configured
        exact ⟨r, rfl, ((ih t c).1 r here).append [move]⟩

/-! ## The life cycle -/

/-- A start waits for the answer to its `initialize`. -/
def AwaitsInitialize (d : Scene) (t : Nat) : Prop :=
  ∃ c attempt call, d.session.tasks[t]? = some (.start (.initializing c attempt call)) ∧
    call.result? = none

/-- Only a step of a start that has configured the documents makes the session running. -/
theorem Change.running (change : Change d d') (was : d.session.state ≠ .running)
    (is : d'.session.state = .running) :
    ∃ (t c : Nat) (kind : SyncKind), d.session.tasks[t]? = some (.start (.configuring c kind)) ∧
      d'.session.tasks[t]? = some (.start (.greeting c kind)) := by
  cases change with
  | stayed | spawned | fired | edited | passed => exact absurd is was
  | moved h s moved =>
    cases moved with
    | served _ _ serves =>
      obtain ⟨c, connection, registry, handlers, passing, diagnostics, -, -, rfl⟩ := serves
      exact absurd is was
    | task t task _ s₁ task' here step =>
      rcases step.state_cases with same | ⟨-, ran, -⟩
      · exact absurd (same ▸ is) was
      · obtain ⟨c, kind, rfl, rfl⟩ := ran is
        exact ⟨t, c, kind, here, step.self here⟩

/-- What every change of the state keeps to be so stays so. -/
theorem state_induction {p : SessionState → Prop}
    (next : ∀ state state', SessionState.Next state state' → p state → p state')
    (holds : p ((machine setup).after moves).session.state) (more : List Move) :
    p ((machine setup).after (moves ++ more)).session.state := by
  induction more using List.reverseRecOn with
  | nil => simpa using holds
  | append_singleton more move ih =>
    rw [← List.append_assoc]
    rcases (change_after (moves ++ more) move).state_cases with same | changed
    · rwa [same]
    · exact next _ _ changed ih

/-- **The life cycle of a session.**  In whatever order starts, stops, replies, losses of connections
    and watches take their steps:

    * the state changes only as `SessionState.Next` says; from stopping only stopped follows, and
      nothing follows stopped;
    * a session that was starting becomes running only by a step of a start that has configured the
      documents, by a readable result that the read loop once had as the answer to an `initialize` of
      that same start;
    * no two starts wait for an answer to `initialize` at the same time. -/
theorem life_cycle (setup : Setup) (moves : List Move) :
    (∀ move, ((machine setup).after (moves ++ [move])).session.state =
          ((machine setup).after moves).session.state ∨
        SessionState.Next ((machine setup).after moves).session.state
          ((machine setup).after (moves ++ [move])).session.state) ∧
      (∀ more, ((machine setup).after moves).session.state = .stopping →
        ((machine setup).after (moves ++ more)).session.state = .stopping ∨
          ((machine setup).after (moves ++ more)).session.state = .stopped) ∧
      (∀ more, ((machine setup).after moves).session.state = .stopped →
        ((machine setup).after (moves ++ more)).session.state = .stopped) ∧
      (∀ move, ((machine setup).after moves).session.state = .starting →
        ((machine setup).after (moves ++ [move])).session.state = .running →
        ∃ (t c : Nat) (r : InitializeResult),
          ((machine setup).after moves).session.tasks[t]? =
            some (.start (.configuring c r.capabilities.syncKind)) ∧
          ((machine setup).after (moves ++ [move])).session.tasks[t]? =
            some (.start (.greeting c r.capabilities.syncKind)) ∧
          (machine setup).Once moves (·.AnswersStart t c r)) ∧
      ∀ t t', ((machine setup).after moves).AwaitsInitialize t →
        ((machine setup).after moves).AwaitsInitialize t' → t = t' := by
  refine ⟨fun move => (change_after moves move).state_cases, ?_, ?_, ?_, ?_⟩
  · intro more stopping
    refine state_induction (p := fun state => state = .stopping ∨ state = .stopped) ?_
      (Or.inl stopping) more
    rintro state state' next (rfl | rfl)
    · exact Or.inr (next.of_stopping.1 rfl)
    · exact absurd rfl next.of_stopping.2
  · intro more stopped
    refine state_induction (p := fun state => state = .stopped) ?_ stopped more
    rintro state state' next rfl
    exact absurd rfl next.of_stopping.2
  · intro move starting running
    obtain ⟨t, c, kind, before, after⟩ := (change_after moves move).running (by simp [starting]) running
    -- the reply that was read when the start began to conclude is its own
    obtain ⟨r, rfl, once⟩ := (traced_after moves t c).2 kind before
    exact ⟨t, c, r, before, after, once⟩
  · rintro t t' ⟨c, attempt, call, here, -⟩ ⟨c', attempt', call', here', -⟩
    exact (guarded_after moves).unique here trivial here' trivial

end Scene

end LanguageClient
