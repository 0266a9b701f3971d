import LanguageClient.Proofs.Session.Attached
import LanguageClient.Proofs.Session.Origin
import LanguageClient.Proofs.Session.Surfaced
import LanguageClient.Proofs.Session.Teardown
/-!
# What a start comes to

A start that returns without an error has made the session running; one that returns an error has taken
down what it has set up (`start_outcome`).  That holds for whatever the transport, the server and the
other tasks do, as long as nobody stops the session.

Two things are left behind nevertheless.  A handler of the server that takes its step after the registry
was cleared registers something all the same (`registration_survives_failure`); and when the start could
not write once the session ran, the session is not start-failed, so it cannot be started again.
-/

namespace LanguageClient

/-- A start has cleared the registry, with all else that it had to take down. -/
def StartPhase.Cleared : StartPhase → Prop
  | .failing _ .forgetting | .failing _ .reaping | .reporting _ | .ended (.error _) => True
  | _ => False

namespace Session

variable {now : Nat} {h h' : Host} {s s' : Session} {t c : Nat} {p p' : StartPhase} {down : Teardown}

/-! ## Steps -/

/-- How the state of a session goes with where a start stands that is under way or has just ended;
    `ran` says that this start has made the session running. -/
def Stands (ran : Prop) : StartPhase → SessionState → Prop
  | .greeting .., _ | .listing _, _ | .announcing .., _ | .ended (.ok _), _ => ran
  | .failing .., state => state = .starting ∨ ran
  | .reporting _, state => state = .startFailed
  | .ended (.error _), state => state = .startFailed ∨ ran
  | _, state => state = .starting

/-- A start goes along with the state of its session. -/
theorem StartStep.stands {ran ran' : Prop} (step : StartStep now h s t p h' s' p') (on : p.UnderWay)
    (stands : Stands ran p s.state) (still : ran → ran')
    (begins : ∀ c kind, p = .configuring c kind → p' = .greeting c kind → ran') :
    Stands ran' p' s'.state := by
  cases step with
  | passed | refused | begun => exact on.elim
  | connected outcome rest _ next =>
    rcases next with rfl | rfl | ⟨reason, rfl⟩
    · exact stands
    · exact stands
    · exact Or.inl stands
  | held | recorded => exact stands
  | published c _ call begun => exact begun.state.trans stands
  | called c attempt call _ call' unanswered step => exact step.state.trans stands
  | concluded c attempt call result _ _ _ ended next =>
    have starting : s.state = .starting := stands
    cases next <;> first
      | exact starting
      | exact Or.inl starting
  | answered c attempt call s₁ call' result _ _ _ unanswered step ended next =>
    have starting : s₁.state = .starting := step.state.trans stands
    cases next <;> first
      | exact starting
      | exact Or.inl starting
  | retried c attempt _ _ call place begun =>
    refine begun.state.trans ?_
    rcases place with ⟨failure, rfl⟩ | ⟨failure, deadline, rfl⟩ <;> exact stands
  | gaveUp c attempt _ failure place =>
    rcases place with ⟨reply, rfl⟩ | ⟨deadline, reply, rfl⟩ <;> exact Or.inl stands
  -- the one step that makes the session run
  | ran c kind free starting => exact begins c kind rfl rfl
  | overtaken c kind free other => exact Or.inl stands
  | greeted | greetedOnly => exact still stands
  | listed c _ _ next | announced c params rest _ _ can next => cases next <;> exact still stands
  | unwritten c _ e place cannot =>
    rcases place with ⟨kind, rfl⟩ | ⟨params, rest, rfl⟩ <;> exact Or.inr (still stands)
  | tore e down _ down' step => exact stands.imp (step.state.trans ·) still
  | failed => exact rfl
  | failedQuietly => exact Or.inl rfl
  | failedLate e down s₁ step other =>
    -- a start that never got to running cannot fail late
    rcases stands with starting | ran
    · exact absurd (step.state.trans starting) other
    · exact Or.inr (still ran)
  | reported => exact Or.inl stands

theorem TeardownStep.before_ended (step : TeardownStep s down s' .ended) : down = .reaping := by
  generalize place : Teardown.ended = down' at step
  cases step with
  | reaped => rfl
  | closed _ _ _ _ _ _ next => rcases next with rfl | rfl <;> simp at place
  | _ => simp at place

/-- The teardown of a start comes past the registry by clearing it. -/
theorem StartStep.cleared (step : StartStep now h s t p h' s' p') (on : p.UnderWay)
    (cleared : p'.Cleared) : p.Cleared ∨ s'.registry = {} := by
  cases step with
  | refused => exact on.elim
  | tore e down _ down' step =>
    cases step with
    | cleared => exact Or.inr rfl
    | forgot | reaped => exact Or.inl trivial
    | closed _ _ _ _ _ _ next => rcases next with rfl | rfl <;> exact cleared.elim
    | _ => exact cleared.elim
  | failed e down _ step | failedQuietly e down _ step | failedLate e down _ step =>
    obtain rfl := step.before_ended
    exact Or.inl trivial
  | reported => exact Or.inl trivial
  | connected outcome rest _ next => rcases next with rfl | rfl | ⟨reason, rfl⟩ <;> exact cleared.elim
  | concluded _ _ _ _ _ _ _ _ next | answered _ _ _ _ _ _ _ _ _ _ _ _ next =>
    cases next <;> exact cleared.elim
  | listed _ _ _ next | announced _ _ _ _ _ _ next => cases next <;> exact cleared.elim
  | _ => exact cleared.elim

/-- A start that returns gives the lock on starting back, and an error that it returns is the one that it
    has failed with. -/
theorem StartStep.returns {result : Except ClientError Unit}
    (step : StartStep now h s t p h' s' (.ended result)) (on : p.UnderWay) :
    s'.starter = none ∧
      ∀ e, result = .error e → (∃ down, p = .failing e down) ∨ p = .reporting e := by
  generalize place : StartPhase.ended result = p' at step
  cases step with
  | passed | refused => exact on.elim
  | greetedOnly =>
    obtain rfl := StartPhase.ended.inj place
    exact ⟨rfl, by simp⟩
  | failedQuietly e down | failedLate e down =>
    obtain rfl := StartPhase.ended.inj place
    exact ⟨rfl, fun e' same => Or.inl ⟨down, by rw [Except.error.inj same]⟩⟩
  | reported e =>
    obtain rfl := StartPhase.ended.inj place
    exact ⟨rfl, fun e' same => Or.inr (by rw [Except.error.inj same])⟩
  | listed _ _ _ next | announced _ _ _ _ _ _ next =>
    cases next with
    | finished =>
      obtain rfl := StartPhase.ended.inj place
      exact ⟨rfl, by simp⟩
    | next => simp at place
  | connected _ _ _ next => rcases next with rfl | rfl | ⟨reason, rfl⟩ <;> simp [failStart] at place
  | concluded _ _ _ _ _ _ _ _ next | answered _ _ _ _ _ _ _ _ _ _ _ _ next =>
    cases next <;> simp [failStart] at place
  | _ => simp [failStart] at place

/-- Nothing changes for a start while others move the state only from running to stopped. -/
theorem Stands.of_state {ran ran' : Prop} (stands : Stands ran p s.state) (still : ran → ran')
    (state : s'.state = s.state ∨ s'.state = .stopped ∧ s.state = .running) :
    Stands ran' p s'.state := by
  rcases state with same | ⟨-, running⟩
  · rw [same]
    cases p with
    | greeting | listing | announcing => exact still stands
    | failing => exact stands.imp_right still
    | ended result =>
      cases result with
      | ok => exact still stands
      | error => exact stands.imp_right still
    | _ => exact stands
  · rw [running] at stands
    cases p with
    | greeting | listing | announcing => exact still stands
    | failing => exact Or.inr (still (stands.resolve_left (by simp)))
    | ended result =>
      cases result with
      | ok => exact still stands
      | error => exact Or.inr (still (stands.resolve_left (by simp)))
    | _ => simp [Stands] at stands

end Session

namespace Scene

variable {setup : Setup} {moves : List Move} {d d' : Scene} {t c : Nat} {kind : SyncKind}
  {p : StartPhase}

/-! ## Without stops -/

/-- As long as nobody stops a session, it has no stop. -/
theorem no_stop_after (moves : List Move) (unstopped : Move.stop ∉ moves) (t : Nat) (p : StopPhase) :
    ((machine setup).after moves).session.tasks[t]? ≠ some (.stop p) := by
  intro here
  rcases called_after moves t _ here with ⟨move, among, calls⟩ | born
  · cases move <;> simp [Move.task?, Task.seed] at calls
    exact unstopped among
  · cases born

/-- As long as nobody stops a session, it does not stop. -/
theorem unstopped_after (moves : List Move) (unstopped : Move.stop ∉ moves) :
    ((machine setup).after moves).session.state ≠ .stopping := by
  revert unstopped
  refine run_changes (fun moves d => Move.stop ∉ moves → d.session.state ≠ .stopping) ?_ ?_ moves
  · simp [machine, Session.ofConfig]
  · rintro moves move d d' rfl rfl change ih unstopped stopping
    have earlier : Move.stop ∉ moves := fun stop => unstopped (List.mem_append_left _ stop)
    rcases change.cases with ⟨-, moved⟩ | ⟨aside, -⟩
    · generalize ((machine setup).after (moves ++ [move])).session = s' at *
      generalize ((machine setup).after (moves ++ [move])).host = h' at *
      cases moved with
      | task t task _ s₁ task' here step =>
        rcases step.state_cases with same | ⟨-, -, -, -, stopped⟩
        · exact ih earlier (same ▸ stopping)
        · obtain ⟨p, rfl⟩ := stopped stopping
          exact no_stop_after moves earlier t p here
      | served _ _ serves =>
        obtain ⟨c, connection, registry, handlers, passing, diagnostics, -, -, rfl⟩ := serves
        exact ih earlier stopping
    · rw [aside.rest] at stopping
      exact ih earlier stopping

/-! ## Along a run -/

/-- Where a start stands goes with the state of its session, as long as nobody stops it. -/
theorem stands_after (moves : List Move) (unstopped : Move.stop ∉ moves) :
    ∀ (t : Nat) (p : StartPhase), ((machine setup).after moves).session.tasks[t]? = some (.start p) →
      p.UnderWay → Session.Stands (∃ c kind, RanOn setup moves t c kind) p
        ((machine setup).after moves).session.state := by
  revert unstopped
  refine run_changes (fun moves d => Move.stop ∉ moves → ∀ (t : Nat) (p : StartPhase),
    d.session.tasks[t]? = some (.start p) → p.UnderWay →
      Session.Stands (∃ c kind, RanOn setup moves t c kind) p d.session.state) ?_ ?_ moves
  · simp [machine, Session.ofConfig]
  · rintro moves move d d' rfl rfl change ih unstopped t p here' on
    have earlier : Move.stop ∉ moves := fun stop => unstopped (List.mem_append_left _ stop)
    have still : (∃ c kind, RanOn setup moves t c kind) →
        ∃ c kind, RanOn setup (moves ++ [move]) t c kind := by
      rintro ⟨c, kind, ran⟩
      exact ⟨c, kind, ran.append [move]⟩
    rcases change.underWay_cases (covered_after moves) (guarded_after moves) here' on with
      ⟨here, apart⟩ | ⟨q, h, s₁, here, step, result⟩
    · refine (ih earlier t p here on).of_state still ?_
      have going := @unstopped_after setup moves earlier
      have going' := @unstopped_after setup (moves ++ [move]) unstopped
      rcases apart.state with same | stopping | ⟨stopped, running | stopping⟩
      · exact Or.inl same
      · exact absurd stopping going'
      · exact Or.inr ⟨stopped, running⟩
      · exact absurd stopping going
    · rw [result]
      change Session.Stands _ p s₁.state
      by_cases under : q.UnderWay
      · refine step.stands under (ih earlier t q here under) still ?_
        rintro c kind rfl rfl
        -- nobody has made the session running before, for then this start would be past its handshake
        rcases quiet_or_ranOn moves with quiet | ⟨t', c', kind', ran⟩
        · obtain ⟨starting, -, -, rfl⟩ := step.of_ran rfl
          exact ⟨c, kind, moves, move, [], rfl, quiet, here, quiet.free, starting, result⟩
        · exact (ran.on.past t _ here).elim
      · obtain ⟨rfl, starting⟩ := step.begins under on
        exact starting

/-- A start that has made the session running has something to tell on a connection that cannot be
    written on. -/
def CutOff (t c : Nat) (d : Scene) : Prop :=
  (d.session.connection c).canWrite = false ∧
    ∃ p, d.session.tasks[t]? = some (.start p) ∧ (Task.start p).HoldsSync

/-- A start that fails after it has made the session running could not write on its connection. -/
theorem RanOn.cutOff {e : ClientError} {down : Teardown} (ran : RanOn setup moves t c kind)
    (failing : ((machine setup).after moves).session.tasks[t]? = some (.start (.failing e down))) :
    (machine setup).Once moves (CutOff t c) := by
  refine ran_induction (fun moves d => ∀ e down, d.session.tasks[t]? = some (.start (.failing e down)) →
    (machine setup).Once moves (CutOff t c)) ?_ ?_ ran e down failing
  · intro moves move _ step e down failing
    rw [step.here] at failing
    simp at failing
  · rintro moves move d d' rfl rfl ran change ih e down failing
    rcases change.underWay_cases (covered_after moves) (guarded_after moves) failing trivial with
      ⟨here, -⟩ | ⟨q, h, s₁, here, step, -⟩
    · exact (ih e down here).append [move]
    · rcases step.of_failing (ran.on.past t q here) with ⟨e, down, rfl⟩ | ⟨cannot, holds⟩
      · exact (ih e down here).append [move]
      · exact (Machine.Once.now (m := machine setup) ⟨cannot, q, here, holds⟩).append [move]

/-- After a start had cleared the registry, the handler of a request registered something. -/
def RegisteredLate (setup : Setup) (moves : List Move) (t : Nat) : Prop :=
  ∃ before c j registrations later p, moves = before ++ .act (.handler c j) :: later ∧
    ((machine setup).after before).session.tasks[t]? = some (.start p) ∧ p.Cleared ∧
    ((machine setup).after before).session.handlers.get? (c, j) = some (.registering registrations)

theorem RegisteredLate.append (late : RegisteredLate setup moves t) (more : List Move) :
    RegisteredLate setup (moves ++ more) t := by
  obtain ⟨before, c, j, registrations, later, p, rfl, rest⟩ := late
  exact ⟨before, c, j, registrations, later ++ more, p, by simp, rest⟩

/-- What a start has cleared stays empty, but for what a handler registers late. -/
theorem registry_concat (move : Move)
    (here : ((machine setup).after moves).session.tasks[t]? = some (.start p)) (cleared : p.Cleared)
    (empty : ((machine setup).after moves).session.registry = {} ∨ RegisteredLate setup moves t) :
    ((machine setup).after (moves ++ [move])).session.registry = {} ∨
      RegisteredLate setup (moves ++ [move]) t := by
  rcases empty with empty | late
  · rw [Machine.after_concat]
    rcases step_registry (covered_after moves) move empty with kept | ⟨c, j, registrations, rfl, place⟩
    · exact Or.inl kept
    · exact Or.inr ⟨moves, c, j, registrations, [], p, rfl, here, cleared, place⟩
  · exact Or.inr (late.append [move])

theorem registry_after (moves : List Move) : ∀ (t : Nat) (p : StartPhase),
    ((machine setup).after moves).session.tasks[t]? = some (.start p) → p.UnderWay → p.Cleared →
    ((machine setup).after moves).session.registry = {} ∨ RegisteredLate setup moves t := by
  refine run_changes (fun moves d => ∀ (t : Nat) (p : StartPhase),
    d.session.tasks[t]? = some (.start p) → p.UnderWay → p.Cleared →
    d.session.registry = {} ∨ RegisteredLate setup moves t) ?_ ?_ moves
  · simp [machine, Session.ofConfig]
  · rintro moves move d d' rfl rfl change ih t p here' on cleared
    rcases change.underWay_cases (covered_after moves) (guarded_after moves) here' on with
      ⟨here, -⟩ | ⟨q, h, s₁, here, step, result⟩
    · exact registry_concat move here cleared (ih t p here on cleared)
    · by_cases under : q.UnderWay
      · rcases step.cleared under cleared with already | empty
        · exact registry_concat move here already (ih t q here under already)
        · rw [result]
          exact Or.inl empty
      · obtain ⟨rfl, -⟩ := step.begins under on
        exact cleared.elim

/-! ## The result -/

/-- A start that comes next goes ahead. -/
def CanStart (s : Session) : Prop :=
  ∀ now h t, ∃ s', s.stepStart now h t .locking = some (h, s', .opening)

/-- **What a start comes to**, as long as nobody stops the session.  A start that returns without an error
    has made the session running.  One that returns an error leaves no connection, no process, no
    capabilities and no document announced, and nothing registered but what a handler has registered
    since it cleared the registry; and the session is start-failed and can be started again, unless this
    start had made it running and then could not write. -/
theorem start_outcome (setup : Setup) (moves : List Move) (move : Move) (t : Nat) (p : StartPhase)
    (result : Except ClientError Unit) (unstopped : Move.stop ∉ moves ++ [move])
    (here : ((machine setup).after moves).session.tasks[t]? = some (.start p)) (on : p.UnderWay)
    (returned : ((machine setup).after (moves ++ [move])).session.tasks[t]? =
      some (.start (.ended result))) :
    let s := ((machine setup).after (moves ++ [move])).session
    match result with
    | .ok _ => ∃ c kind, RanOn setup moves t c kind
    | .error _ =>
      s.current = none ∧ s.hasProcess = false ∧ s.capabilities = none ∧
        (∀ uri, s.sync.isAnnounced uri = false) ∧
        (s.registry = {} ∨ RegisteredLate setup (moves ++ [move]) t) ∧
        (s.state = .startFailed ∧ CanStart s ∨
          (s.state = .running ∨ s.state = .stopped) ∧
            ∃ c kind, RanOn setup moves t c kind ∧ (machine setup).Once moves (CutOff t c)) := by
  intro s
  have earlier : Move.stop ∉ moves := fun stop => unstopped (List.mem_append_left _ stop)
  have change : Change ((machine setup).after moves) ((machine setup).after (moves ++ [move])) :=
    change_after moves move
  -- the last move is the last step of the start
  obtain ⟨h, s₁, step, same⟩ : ∃ h s₁, Session.StartStep ((machine setup).after moves).now
      ((machine setup).after moves).host ((machine setup).after moves).session t p h s₁
        (.ended result) ∧ s = s₁.setTask t (.start (.ended result)) := by
    rcases change.of_underWay (covered_after moves) (guarded_after moves) here on with
      ⟨-, still⟩ | ⟨h, s₁, p', step, same⟩
    · rw [returned] at still
      obtain rfl := Task.start.inj (Option.some.inj still)
      exact on.elim
    · have there := (Session.TaskStep.start p h s₁ p' step).self here
      rw [← same, returned] at there
      obtain rfl := Task.start.inj (Option.some.inj there)
      exact ⟨h, s₁, step, same⟩
  have stands := step.stands on (stands_after moves earlier t p here on) id (by simp)
  have shed := step.shed on (shed_after moves t p here on)
  cases result with
  | ok => exact stands
  | error e =>
    obtain ⟨unused, closed, incapable, childless⟩ := shed
    rw [same]
    refine ⟨unused, childless, incapable, closed, ?_, ?_⟩
    · rw [← same]
      rcases step.cleared on trivial with cleared | empty
      · exact registry_concat move here cleared (registry_after moves t p here on cleared)
      · rw [same]
        exact Or.inl empty
    · rcases stands with failed | ⟨c, kind, ran⟩
      · refine Or.inl ⟨failed, fun now h i => ?_⟩
        have free := (step.returns on).1
        simp [Session.stepStart, Session.setTask, failed, free]
      · refine Or.inr ⟨?_, c, kind, ran, ?_⟩
        · have going := @unstopped_after setup (moves ++ [move]) unstopped
          rw [← same]
          rcases (ran.append [move]).on.late with running | stopping | stopped
          · exact Or.inl running
          · exact absurd stopping going
          · exact Or.inr stopped
        · rcases (step.returns on).2 e rfl with ⟨down, rfl⟩ | rfl
          · exact ran.cutOff here
          · have failed : ((machine setup).after moves).session.state = .startFailed :=
              stands_after moves earlier t _ here on
            exact absurd failed ran.on.late_ne.2

/-- Why a start fails, and how far its teardown has come. -/
def failing? (d : Scene) (t : Nat) : Option (ClientError × Teardown) :=
  match d.session.tasks[t]? with
  | some (.start (.failing e down)) => some (e, down)
  | _ => none

theorem eq_of_failing? {e : ClientError} {down : Teardown} (failing : d.failing? t = some (e, down)) :
    d.session.tasks[t]? = some (.start (.failing e down)) := by
  unfold failing? at failing
  split at failing
  · simp_all
  · simp at failing

theorem eq_of_startError? {e : ClientError} (failed : d.startError? t = some e) :
    d.session.tasks[t]? = some (.start (.ended (.error e))) := by
  unfold startError? at failed
  split at failed
  · simp_all
  · simp at failed

/-- A server answers the handshake and takes no more of what is written. -/
def cutting : List Move :=
  let result : Json := .obj [("capabilities", .obj [("textDocumentSync", .int 1)])]
  [.start] ++ goesOn 6 ++
    [.feed 0 (Utf8.encodeString (Message.response (.success (.number 1) result)).frame),
      .act (.reader 0), .act (.reader 0)] ++
    goesOn 3 ++ [.deafen 0] ++ goesOn 6

/-- The session runs and has no connection, and what the start has set up is gone. -/
theorem start_outcome_cutOff :
    let s := ((machine agreeing).after (cutting ++ [.act (.task 0)])).session
    ((machine agreeing).after (cutting ++ [.act (.task 0)])).startError? 0 =
      some (.system .brokenPipe) ∧
    s.state = .running ∧ s.current = none ∧ s.hasProcess = false ∧ s.capabilities = none ∧
    (∀ uri, s.sync.isAnnounced uri = false) ∧
    ∃ c kind, RanOn agreeing cutting 0 c kind ∧ (machine agreeing).Once cutting (CutOff 0 c) := by
  have unstopped : Move.stop ∉ cutting ++ [.act (.task 0)] := by simp [cutting, goesOn]
  have here : ((machine agreeing).after cutting).failing? 0 =
      some (.system .brokenPipe, .reaping) := by decide +kernel
  have returned : ((machine agreeing).after (cutting ++ [.act (.task 0)])).startError? 0 =
      some (.system .brokenPipe) := by decide +kernel
  have runs : ((machine agreeing).after (cutting ++ [.act (.task 0)])).session.state = .running := by
    decide +kernel
  obtain ⟨unused, childless, incapable, closed, -, outcome⟩ := start_outcome agreeing cutting
    (.act (.task 0)) 0 _ _ unstopped (eq_of_failing? here) trivial (eq_of_startError? returned)
  rcases outcome with ⟨failed, -⟩ | ⟨-, ran⟩
  · rw [runs] at failed
    simp at failed
  · exact ⟨returned, runs, unused, childless, incapable, closed, ran⟩

/-- A server registers something and refuses to be initialized; the handler of its first request takes
    its last step when the start has cleared the registry. -/
def registering : List Move :=
  let wish : Json := .obj [("id", .str "w1"), ("method", .str "workspace/didChangeWatchedFiles")]
  let request : Request :=
    { id := .text "r1"
      method := "client/registerCapability"
      params := some (.obj [("registrations", .arr [wish])]) }
  [.start] ++ goesOn 6 ++
    [.feed 0 (Utf8.encodeString (Message.request request).frame),
      .act (.reader 0), .act (.reader 0), .act (.reader 0), .act (.job 0 0), .act (.handler 0 0)] ++
    refused 1 "fatal" false ++ goesOn 5 ++ [.act (.handler 0 0)] ++ goesOn 3

/-- The only start has failed, nobody has stopped the session, and something is registered. -/
theorem registration_survives_failure :
    Move.stop ∉ registering ∧
    ((machine agreeing).after registering).startError? 0 = some (.handshake "fatal" false) ∧
    ((machine agreeing).after registering).session.state = .startFailed ∧
    ((machine agreeing).after registering).session.registry.registrations.map (·.method) =
      ["workspace/didChangeWatchedFiles"] := by
  refine ⟨by simp [registering, goesOn, refused], ?_⟩
  decide +kernel

end Scene

end LanguageClient
