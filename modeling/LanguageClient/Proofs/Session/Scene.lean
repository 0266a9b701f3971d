import LanguageClient.Proofs.Machine
import LanguageClient.Proofs.Session.Serve
import LanguageClient.Proofs.Session.Start
import LanguageClient.Proofs.Session.Traffic
import LanguageClient.Session.Step
/-!
# A session and all who work on it

`Scene` is a session with its host and a clock.  Its moves are all that can happen: the editor opens,
edits and closes documents, somebody starts or stops the session, tells it of an event, asks for edits
or sends a request; each task, read loop, job and handler takes its steps; time passes, octets come,
and a server hangs up, refuses all further writes, or leaves a message half read for a while.  A list
of moves is a run with its turns in any order.

`Moved` sorts the steps of a session by the task that takes them, `Change` the moves of a scene, and
`step_change` says that there are no others.  Where it matters who makes a move, `step_task` tells what
a task can do, and `step_beside` what happens without one.
-/

namespace LanguageClient

namespace Session

/-! ## Steps of a session -/

/-- What a step of a task can do: how the host and the session come out of it, and the task. -/
inductive TaskStep (now : Nat) (h : Host) (s : Session) (t : Nat) :
    Task → Host → Session → Task → Prop where
  | start (p : StartPhase) (h₁ : Host) (s₁ : Session) (p' : StartPhase)
      (step : StartStep now h s t p h₁ s₁ p') : TaskStep now h s t (.start p) h₁ s₁ (.start p')
  | stop (p : StopPhase) (s₁ : Session) (p' : StopPhase) (step : StopStep now s p s₁ p') :
      TaskStep now h s t (.stop p) h s₁ (.stop p')
  | watch (c : Nat) (p : WatchPhase) (h₁ : Host) (s₁ : Session) (p' : WatchPhase)
      (step : WatchStep h s c p h₁ s₁ p') : TaskStep now h s t (.watch c p) h₁ s₁ (.watch c p')
  | event (e : DocumentEvent) (p : EventPhase) (s₁ : Session) (p' : EventPhase)
      (step : EventStep now h s t e p s₁ p') : TaskStep now h s t (.event e p) h s₁ (.event e p')
  | delivery (uri : String) (generation deadline : Nat) (p : DeliveryPhase) (s₁ : Session)
      (p' : DeliveryPhase) (step : DeliveryStep now s t uri generation deadline p s₁ p') :
      TaskStep now h s t (.delivery uri generation deadline p) h s₁
        (.delivery uri generation deadline p')
  | query (q : EditQuery) (p : QueryPhase) (s₁ : Session) (p' : QueryPhase)
      (step : QueryStep now h s t q p s₁ p') : TaskStep now h s t (.query q p) h s₁ (.query q p')
  | request (method : String) (params : Option Json) (cancelled : Bool) (p : RequestPhase)
      (s₁ : Session) (p' : RequestPhase) (step : RequestStep now s method params cancelled p s₁ p') :
      TaskStep now h s t (.request method params cancelled p) h s₁
        (.request method params cancelled p')

/-- What a step of a session can do: a task takes a step, or somebody serves the server. -/
inductive Moved (now : Nat) (h : Host) (s : Session) : Host → Session → Prop where
  | task (t : Nat) (task : Task) (h₁ : Host) (s₁ : Session) (task' : Task)
      (here : s.tasks[t]? = some task) (step : TaskStep now h s t task h₁ s₁ task') :
      Moved now h s h₁ (s₁.setTask t task')
  | served (h₁ : Host) (s₁ : Session) (serves : Serves h s h₁ s₁) : Moved now h s h₁ s₁

variable {now : Nat} {h h' : Host} {s s' : Session}

/-- A task that takes a step has one of the listed effects, and stands where the step has led it. -/
theorem stepTask_cases (covered : s.sync.Covered) {t : Nat}
    (step : s.stepTask now h t = some (h', s')) :
    ∃ task s₁ task', s.tasks[t]? = some task ∧ TaskStep now h s t task h' s₁ task' ∧
      s' = s₁.setTask t task' := by
  unfold stepTask at step
  cases here : s.tasks[t]? with
  | none => simp [here] at step
  | some task =>
    simp only [here, Option.bind_eq_bind, Option.bind_some] at step
    cases task with
    | start p =>
      obtain ⟨⟨h₁, s₁, p'⟩, stepped, same⟩ := Option.map_eq_some_iff.mp step
      obtain ⟨rfl, rfl⟩ := Prod.mk.inj same
      exact ⟨_, s₁, _, rfl, .start p _ s₁ p' (stepStart_cases stepped), rfl⟩
    | stop p =>
      obtain ⟨_, kept, same⟩ := Option.map_eq_some_iff.mp step
      obtain ⟨⟨s₁, p'⟩, stepped, rfl⟩ := Option.map_eq_some_iff.mp kept
      obtain ⟨rfl, rfl⟩ := Prod.mk.inj same
      exact ⟨_, s₁, _, rfl, .stop p s₁ p' (stepStop_cases stepped), rfl⟩
    | watch c p =>
      obtain ⟨⟨h₁, s₁, p'⟩, stepped, same⟩ := Option.map_eq_some_iff.mp step
      obtain ⟨rfl, rfl⟩ := Prod.mk.inj same
      exact ⟨_, s₁, _, rfl, .watch c p _ s₁ p' (stepWatch_cases stepped), rfl⟩
    | event e p =>
      obtain ⟨_, kept, same⟩ := Option.map_eq_some_iff.mp step
      obtain ⟨⟨s₁, p'⟩, stepped, rfl⟩ := Option.map_eq_some_iff.mp kept
      obtain ⟨rfl, rfl⟩ := Prod.mk.inj same
      exact ⟨_, s₁, _, rfl, .event e p s₁ p' (stepEvent_cases covered stepped), rfl⟩
    | delivery uri generation deadline p =>
      obtain ⟨_, kept, same⟩ := Option.map_eq_some_iff.mp step
      obtain ⟨⟨s₁, p'⟩, stepped, rfl⟩ := Option.map_eq_some_iff.mp kept
      obtain ⟨rfl, rfl⟩ := Prod.mk.inj same
      exact ⟨_, s₁, _, rfl,
        .delivery uri generation deadline p s₁ p' (stepDelivery_cases covered stepped), rfl⟩
    | query q p =>
      obtain ⟨_, kept, same⟩ := Option.map_eq_some_iff.mp step
      obtain ⟨⟨s₁, p'⟩, stepped, rfl⟩ := Option.map_eq_some_iff.mp kept
      obtain ⟨rfl, rfl⟩ := Prod.mk.inj same
      exact ⟨_, s₁, _, rfl, .query q p s₁ p' (stepQuery_cases covered stepped), rfl⟩
    | request method params cancelled p =>
      obtain ⟨_, kept, same⟩ := Option.map_eq_some_iff.mp step
      obtain ⟨⟨s₁, p'⟩, stepped, rfl⟩ := Option.map_eq_some_iff.mp kept
      obtain ⟨rfl, rfl⟩ := Prod.mk.inj same
      exact ⟨_, s₁, _, rfl,
        .request method params cancelled p s₁ p' (stepRequest_cases stepped), rfl⟩

/-- Whoever is no task serves the server. -/
theorem serves_step {actor : Actor} (other : ∀ t, actor ≠ .task t)
    (step : s.step now h actor = some (h', s')) : Serves h s h' s' := by
  cases actor with
  | task t => exact absurd rfl (other t)
  | reader c =>
    simp only [Session.step] at step
    split at step
    · exact serves_stepReader step
    · simp at step
  | readOn c =>
    simp only [Session.step] at step
    split at step
    · obtain ⟨connection, read, same⟩ := Option.map_eq_some_iff.mp step
      obtain ⟨rfl, rfl⟩ := Prod.mk.inj same
      exact serves_onConnection c (.steady (Connection.steady_readOn read)) rfl
    · simp at step
  | job c j =>
    obtain ⟨connection, stepped, same⟩ := Option.map_eq_some_iff.mp step
    obtain ⟨rfl, rfl⟩ := Prod.mk.inj same
    exact serves_onConnection c (.steady (Connection.steady_stepJob stepped)) rfl
  | handler c j => exact serves_stepHandler step

end Session

/-! ## Scenes -/

/-- A session, its host and the time. -/
structure Scene where
  host : Host
  session : Session
  now : Nat := 0

namespace Scene

inductive Move where
  | start
  | stop
  | event (e : DocumentEvent)
  | query (q : EditQuery)
  | request (method : String) (params : Option Json) (cancelled : Bool)
  | fire (t : Nat)
  | act (actor : Actor)
  /-- The work on files that the handler of a job waits for is done. -/
  | finishFiles (c j : Nat)
  | pass (millis : Nat)
  | feed (c : Nat) (octets : List UInt8)
  | hangUp (c : Nat)
  /-- From now on writes on a connection fail. -/
  | deafen (c : Nat)
  /-- The server does not take what is being written on a connection, or takes it again. -/
  | stall (c : Nat) (stalled : Bool)
  | openDocument (d : Document)
  | editDocument (uri text : String)
  | closeDocument (uri : String)

def touch (d : Scene) (result : Option (Host × Session)) : Scene :=
  match result with
  | some (host, session) => { d with host, session }
  | none => d

def spawn (d : Scene) (task : Task) : Scene :=
  { d with session := d.session.spawn task }

def step (d : Scene) : Move → Scene
  | .start => d.spawn (.start .locking)
  | .stop => d.spawn (.stop .entering)
  | .event e => d.spawn (.event e .locking)
  | .query q => d.spawn (.query q .entering)
  | .request method params cancelled => d.spawn (.request method params cancelled .entering)
  | .fire t => { d with session := d.session.cancelRequest t }
  | .act actor => d.touch (d.session.step d.now d.host actor)
  | .finishFiles c j =>
    d.touch ((d.session.finishFiles d.host c j).map fun session => (d.host, session))
  | .pass millis => { d with now := d.now + millis }
  | .feed c octets => { d with session := d.session.onConnection c (·.feed octets) }
  | .hangUp c => { d with session := d.session.onConnection c (·.hangUp) }
  | .deafen c =>
    { d with session := d.session.onConnection c fun connection =>
      { connection with peerGone := true } }
  | .stall c stalled =>
    { d with session := d.session.onConnection c fun connection => { connection with stalled } }
  | .openDocument document => { d with host := d.host.open document }
  | .editDocument uri text => { d with host := ((d.host.edit uri text).map (·.2)).getD d.host }
  | .closeDocument uri => { d with host := (d.host.close uri).2 }

/-- What is settled before anything happens: the host, the server, and what the attempts to open the
    transport come to, the next ones in turn and then all others. -/
structure Setup where
  host : Host
  server : ServerConfig
  options : SessionOptions := {}
  connector : List ConnectOutcome := []
  connectorRest : ConnectOutcome := .opened

/-- A session for a server from its beginning, with a host that has no document open yet. -/
def machine (setup : Setup) : Machine Scene Move :=
  { start :=
      { host := { setup.host with documents := [] }
        session := { Session.ofConfig setup.server setup.options with
          connector := setup.connector
          connectorRest := setup.connectorRest } }
    step }

@[simp] theorem step_machine (setup : Setup) : (machine setup).step = step := rfl

/-! ## What a move does -/

/-- A task that has not taken a step. -/
inductive Fresh : Task → Prop where
  | start : Fresh (.start .locking)
  | stop : Fresh (.stop .entering)
  | event (e : DocumentEvent) : Fresh (.event e .locking)
  | query (q : EditQuery) : Fresh (.query q .entering)
  | request (method : String) (params : Option Json) (cancelled : Bool) :
      Fresh (.request method params cancelled .entering)

/-- What the editor makes of its documents. -/
inductive Edited (h : Host) : Host → Prop where
  | opened (d : Document) : Edited h (h.open d)
  | edited (uri text : String) : Edited h (((h.edit uri text).map (·.2)).getD h)
  | closed (uri : String) : Edited h (h.close uri).2

inductive Change (d : Scene) : Scene → Prop where
  | stayed : Change d d
  | moved (h : Host) (s : Session) (step : Session.Moved d.now d.host d.session h s) :
      Change d { d with host := h, session := s }
  | spawned (task : Task) (fresh : Fresh task) :
      Change d { d with session := d.session.spawn task }
  | fired (t : Nat) (method : String) (params : Option Json) (cancelled : Bool) (p : RequestPhase)
      (here : d.session.tasks[t]? = some (.request method params cancelled p)) :
      Change d { d with session := d.session.setTask t (.request method params true p) }
  | edited (h : Host) (edit : Edited d.host h) : Change d { d with host := h }
  | passed (now : Nat) : Change d { d with now }

/-- The effect of a move that is no step of a task. -/
inductive Beside (d : Scene) : Scene → Prop where
  | stayed : Beside d d
  | served (h : Host) (s : Session) (serves : Session.Serves d.host d.session h s) :
      Beside d { d with host := h, session := s }
  | spawned (task : Task) (fresh : Fresh task) :
      Beside d { d with session := d.session.spawn task }
  | fired (t : Nat) (method : String) (params : Option Json) (cancelled : Bool) (p : RequestPhase)
      (here : d.session.tasks[t]? = some (.request method params cancelled p)) :
      Beside d { d with session := d.session.setTask t (.request method params true p) }
  | edited (h : Host) (edit : Edited d.host h) : Beside d { d with host := h }
  | passed (now : Nat) : Beside d { d with now }

theorem beside_onConnection (d : Scene) (c : Nat) {f : Connection → Connection}
    (steady : Connection.Steady (d.session.connection c) (f (d.session.connection c))) :
    Beside d { d with session := d.session.onConnection c f } :=
  .served d.host _ (Session.serves_onConnection c (.steady steady) rfl)

/-- A move that is no step of a task has one of the listed effects. -/
theorem step_beside {d : Scene} {move : Move} (other : ∀ i, move ≠ .act (.task i)) :
    Beside d (d.step move) := by
  -- what a server's side does counts as serving
  have touched : ∀ {result}, (∀ h s, result = some (h, s) →
      Session.Serves d.host d.session h s) → Beside d (d.touch result) := by
    intro result serves
    cases result with
    | none => exact .stayed
    | some result => exact .served _ _ (serves _ _ rfl)
  cases move with
  | start => exact .spawned _ .start
  | stop => exact .spawned _ .stop
  | event e => exact .spawned _ (.event e)
  | query q => exact .spawned _ (.query q)
  | request method params cancelled => exact .spawned _ (.request method params cancelled)
  | fire t =>
    simp only [step, Session.cancelRequest]
    split
    · rename_i method params cancelled p here
      exact .fired t method params cancelled p here
    · exact .stayed
  | act actor =>
    exact touched fun h s step =>
      Session.serves_step (fun t same => other t (congrArg Move.act same)) step
  | finishFiles c j =>
    refine touched fun h s step => ?_
    obtain ⟨s₁, finished, same⟩ := Option.map_eq_some_iff.mp step
    obtain ⟨rfl, rfl⟩ := Prod.mk.inj same
    exact Session.serves_finishFiles finished
  | pass millis => exact .passed _
  | feed c octets => exact d.beside_onConnection c (Connection.steady_feed _ octets)
  | hangUp c => exact d.beside_onConnection c (Connection.steady_hangUp _)
  | deafen c =>
    refine d.beside_onConnection c (.of_silent rfl rfl rfl rfl rfl ?_)
    simp [Connection.canWrite]
  | stall c stalled => exact d.beside_onConnection c (.of_silent rfl rfl rfl rfl rfl id)
  | openDocument document => exact .edited _ (.opened document)
  | editDocument uri text => exact .edited _ (.edited uri text)
  | closeDocument uri => exact .edited _ (.closed uri)

/-- A task waits, or takes a step that has one of the listed effects. -/
theorem step_task {d : Scene} (covered : d.session.sync.Covered) (t : Nat) :
    d.step (.act (.task t)) = d ∨ ∃ task h s₁ task', d.session.tasks[t]? = some task ∧
      Session.TaskStep d.now d.host d.session t task h s₁ task' ∧
      d.step (.act (.task t)) = { d with host := h, session := s₁.setTask t task' } := by
  cases stepped : d.session.stepTask d.now d.host t with
  | none => exact Or.inl (by simp [step, Session.step, stepped, touch])
  | some result =>
    obtain ⟨task, s₁, task', here, taken, same⟩ := Session.stepTask_cases covered stepped
    exact Or.inr ⟨task, _, s₁, task', here, taken, by simp [step, Session.step, stepped, touch, same]⟩

theorem Beside.change {d d' : Scene} (beside : Beside d d') : Change d d' := by
  cases beside with
  | stayed => exact .stayed
  | served h s serves => exact .moved h s (.served h s serves)
  | spawned task fresh => exact .spawned task fresh
  | fired t method params cancelled p here => exact .fired t method params cancelled p here
  | edited h edit => exact .edited h edit
  | passed now => exact .passed now

theorem step_change {d : Scene} (covered : d.session.sync.Covered) (move : Move) :
    Change d (d.step move) := by
  by_cases task : ∃ t, move = .act (.task t)
  · obtain ⟨t, rfl⟩ := task
    rcases step_task covered t with same | ⟨task, h, s₁, task', here, step, same⟩ <;> rw [same]
    · exact .stayed
    · exact .moved h _ (.task t task h s₁ task' here step)
  · exact (step_beside fun t same => task ⟨t, same⟩).change

end Scene

end LanguageClient
