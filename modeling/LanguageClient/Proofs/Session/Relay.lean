import LanguageClient.Manager
import LanguageClient.Proofs.Host.Editing
import LanguageClient.Proofs.Session.Run
/-!
# From the editor to a session

Whatever the editor does to its documents gives out an event, and a session is told of the events in
order, each when it is done with the one before.  `Relay` is a scene with the events on the way: those
that the session was not told of yet, and the task that it has for the last one that it was told of.
All else that happens in a scene may happen at any time, but for other editing and other events that ask
for operations on the bookkeeping.

A run of a relay is a run of its scene (`scene_after`).  Each move has one of the effects listed in
`Effect` (`effect_after`), and it leaves the events that were not taken so far, adds to them, or takes
the first of them (`untaken_step`).
-/

namespace LanguageClient

/-- Something that happens in a scene beside the editing and the events that come from it. -/
def Scene.Move.isApart : Scene.Move → Bool
  | .openDocument _ | .editDocument .. | .closeDocument _ => false
  | .event e => e.op?.isNone
  | _ => true

/-- The event that a task has not taken yet. -/
def Task.untaken? : Task → Option DocumentEvent
  | .event e .locking | .event e .looking => some e
  | _ => none

/-- A scene, with the events on their way to its session. -/
structure Relay where
  scene : Scene
  /-- All events that were given out. -/
  history : List DocumentEvent := []
  /-- The events that the session was not told of yet. -/
  queue : List DocumentEvent := []
  /-- The task of the session for the event that it was told of last. -/
  flight : Option Nat := none

namespace Relay

inductive Move where
  | opens (d : Document)
  | edits (uri text : String)
  | closes (uri : String)
  /-- The session is told of the next event. -/
  | passOn
  | other (move : Scene.Move)

/-- Whether the session is done with the event that it was told of last. -/
def isIdle (r : Relay) : Bool :=
  r.flight.all fun t => (r.scene.session.tasks[t]?).any Manager.hasEnded

/-- The events that a move gives out. -/
def emitted (r : Relay) : Move → List DocumentEvent
  | .opens d => [.opened d]
  | .edits uri text => ((r.scene.host.edit uri text).map fun (change, _) => .changed change).toList
  | .closes uri => if (r.scene.host.close uri).1 then [.closed uri] else []
  | .passOn | .other _ => []

/-- What happens in the scene. -/
def sceneMove? (r : Relay) : Move → Option Scene.Move
  | .opens d => some (.openDocument d)
  | .edits uri text => some (.editDocument uri text)
  | .closes uri => some (.closeDocument uri)
  | .passOn => if r.isIdle then r.queue.head?.map .event else none
  | .other move => if move.isApart then some move else none

def step (r : Relay) (move : Move) : Relay :=
  match r.sceneMove? move with
  | none => r
  | some made =>
    let events := r.emitted move
    let r' : Relay :=
      { r with
        scene := r.scene.step made
        history := r.history ++ events
        queue := r.queue ++ events }
    match move with
    | .passOn => { r' with queue := r.queue.tail, flight := some r.scene.session.tasks.length }
    | _ => r'

/-- A relay from its beginning. -/
def machine (setup : Scene.Setup) : Machine Relay Move :=
  { start := { scene := (Scene.machine setup).start }, step }

@[simp] theorem step_machine (setup : Scene.Setup) : (machine setup).step = step := rfl

/-- The events that the session has not taken. -/
def untaken (r : Relay) : List DocumentEvent :=
  ((r.flight.bind (r.scene.session.tasks[·]?)).bind Task.untaken?).toList ++ r.queue

/-- What a run of a relay is for its scene. -/
def path (setup : Scene.Setup) (moves : List Move) : List Scene.Move :=
  (machine setup).recorded (fun r move => (r.sceneMove? move).toList) moves

/-! ## What a move does -/

/-- What the editor does, and the events that it gives out. -/
inductive Edited (h : Host) : Scene.Move → List DocumentEvent → Prop where
  | opened (d : Document) : Edited h (.openDocument d) [.opened d]
  | changed (uri text : String) (change : DocumentChange) (h' : Host)
      (edit : h.edit uri text = some (change, h')) :
      Edited h (.editDocument uri text) [.changed change]
  | unchanged (uri text : String) (unknown : h.edit uri text = none) :
      Edited h (.editDocument uri text) []
  | closed (uri : String) : Edited h (.closeDocument uri) [.closed uri]
  | unclosed (uri : String) (unknown : h.document? uri = none) : Edited h (.closeDocument uri) []

/-- The effect of a move: what happens in the scene, which events are given out, and what becomes of the
    relay. -/
inductive Effect (r : Relay) : Option Scene.Move → List DocumentEvent → Relay → Prop where
  | stayed : Effect r none [] r
  | edited (made : Scene.Move) (events : List DocumentEvent) (edit : Edited r.scene.host made events) :
      Effect r (some made) events
        { r with
          scene := r.scene.step made
          history := r.history ++ events
          queue := r.queue ++ events }
  | passed (e : DocumentEvent) (queue : List DocumentEvent) (idle : r.isIdle = true)
      (first : r.queue = e :: queue) :
      Effect r (some (.event e)) []
        { r with
          scene := r.scene.step (.event e)
          queue
          flight := some r.scene.session.tasks.length }
  | moved (made : Scene.Move) (apart : made.isApart = true) :
      Effect r (some made) [] { r with scene := r.scene.step made }

theorem step_effect (r : Relay) (move : Move) :
    Effect r (r.sceneMove? move) (r.emitted move) (r.step move) := by
  cases move with
  | opens d => exact .edited _ _ (.opened d)
  | edits uri text =>
    -- an edit of nothing gives out nothing
    have edit : Edited r.scene.host (.editDocument uri text) (r.emitted (.edits uri text)) := by
      cases edit : r.scene.host.edit uri text with
      | none => simpa [emitted, edit] using Edited.unchanged uri text edit
      | some result => simpa [emitted, edit] using Edited.changed uri text result.1 result.2 edit
    exact .edited _ _ edit
  | closes uri =>
    -- a closing of nothing gives out nothing
    have edit : Edited r.scene.host (.closeDocument uri) (r.emitted (.closes uri)) := by
      cases there : r.scene.host.document? uri with
      | none => simpa [emitted, Host.close, there] using Edited.unclosed uri there
      | some d => simpa [emitted, Host.close, there] using Edited.closed uri
    exact .edited _ _ edit
  | passOn =>
    -- an event is passed on when the one before has ended
    cases idle : r.isIdle with
    | false => simpa [sceneMove?, step, emitted, idle] using Effect.stayed
    | true =>
      cases first : r.queue with
      | nil => simpa [sceneMove?, step, emitted, idle, first] using Effect.stayed
      | cons e queue =>
        simpa [sceneMove?, step, emitted, idle, first] using Effect.passed e queue idle first
  | other move =>
    cases apart : move.isApart with
    | false => simpa [sceneMove?, step, emitted, apart] using Effect.stayed
    | true => simpa [sceneMove?, step, emitted, apart] using Effect.moved move apart

variable {setup : Scene.Setup} {moves : List Move} {r r' : Relay} {e : DocumentEvent}
  {events : List DocumentEvent} {t : Nat}

theorem path_concat (setup : Scene.Setup) (moves : List Move) (move : Move) :
    path setup (moves ++ [move]) =
      path setup moves ++ (((machine setup).after moves).sceneMove? move).toList := by
  simp [path]

theorem path_prefix (setup : Scene.Setup) (moves more : List Move) :
    path setup moves <+: path setup (moves ++ more) := by
  induction more using List.reverseRecOn with
  | nil => rw [List.append_nil]
  | append_singleton more move ih =>
    rw [← List.append_assoc, path_concat]
    exact ih.trans (List.prefix_append _ _)

theorem effect_after (setup : Scene.Setup) (moves : List Move) (move : Move) :
    Effect ((machine setup).after moves) (((machine setup).after moves).sceneMove? move)
      (((machine setup).after moves).emitted move) ((machine setup).after (moves ++ [move])) := by
  rw [Machine.after_concat]
  exact step_effect _ move

/-- A run of a relay is a run of its scene. -/
theorem scene_after (moves : List Move) :
    ((machine setup).after moves).scene = (Scene.machine setup).after (path setup moves) := by
  refine (machine setup).run_induction
    (fun moves r => r.scene = (Scene.machine setup).after (path setup moves)) rfl ?_ moves
  intro moves move same
  have effect := effect_after setup moves move
  rw [path_concat]
  generalize ((machine setup).after moves).sceneMove? move = made at effect
  generalize ((machine setup).after moves).emitted move = events at effect
  generalize (machine setup).after (moves ++ [move]) = r' at effect
  cases effect with
  | stayed => simpa using same
  | edited made events edit | passed e queue idle first | moved made apart => simp [same]

theorem covered_after (moves : List Move) :
    ((machine setup).after moves).scene.session.sync.Covered := by
  rw [scene_after]
  exact Scene.covered_after _

/-- What happens in the scene is the last move of its run. -/
theorem scene_concat {move : Move} {made : Scene.Move}
    (named : ((machine setup).after moves).sceneMove? move = some made) :
    ((machine setup).after (moves ++ [move])).scene =
      (Scene.machine setup).after (path setup moves ++ [made]) := by
  rw [scene_after, path_concat, named]
  rfl

theorem after_concat_of_none {move : Move}
    (named : ((machine setup).after moves).sceneMove? move = none) :
    (machine setup).after (moves ++ [move]) = (machine setup).after moves := by
  rw [Machine.after_concat, step_machine, step, named]

/-! ## Tasks for events -/

/-- A move that is no step of a task leaves the tasks, gives the session one, or fires a token. -/
theorem step_tasks {d : Scene} {made : Scene.Move} (other : ∀ i, made ≠ .act (.task i)) :
    (d.step made).session.tasks = d.session.tasks ∨
    (∃ task, (d.step made).session.tasks = d.session.tasks ++ [task] ∧
      ∀ e p, task = .event e p → made = .event e) ∨
    ∃ t, made = .fire t := by
  -- who serves the server touches no task
  have served : ∀ {h s}, Session.Serves d.host d.session h s → s.tasks = d.session.tasks := by
    intro h s serves
    obtain ⟨c, connection, registry, handlers, passing, diagnostics, -, -, same⟩ := serves
    rw [same]
    rfl
  cases made with
  | event e =>
    refine Or.inr (Or.inl ⟨.event e .locking, rfl, ?_⟩)
    rintro _ _ ⟨⟩
    rfl
  | start | stop | query | request => exact Or.inr (Or.inl ⟨_, rfl, by simp⟩)
  | fire t => exact Or.inr (Or.inr ⟨t, rfl⟩)
  | act actor =>
    refine Or.inl ?_
    cases stepped : d.session.step d.now d.host actor with
    | none => simp [Scene.step, stepped, Scene.touch]
    | some result =>
      -- the actor is none of the tasks
      have serves := Session.serves_step (fun t same => other t (congrArg Scene.Move.act same)) stepped
      simpa [Scene.step, stepped, Scene.touch] using served serves
  | finishFiles c j =>
    refine Or.inl ?_
    cases finished : d.session.finishFiles d.host c j with
    | none => simp [Scene.step, finished, Scene.touch]
    | some s =>
      have same := served (Session.serves_finishFiles finished)
      simpa [Scene.step, finished, Scene.touch] using same
  | pass | feed | hangUp | deafen | stall | openDocument | editDocument | closeDocument => exact Or.inl rfl

/-- Where a task for an event stands: where it stood, it is new, or it took the step. -/
theorem event_at {d : Scene} (covered : d.session.sync.Covered) (made : Scene.Move) {p : EventPhase}
    (here' : (d.step made).session.tasks[t]? = some (.event e p)) :
    d.session.tasks[t]? = some (.event e p) ∨ made = .event e ∧ t = d.session.tasks.length ∨
    ∃ q s₁, made = .act (.task t) ∧ d.session.tasks[t]? = some (.event e q) ∧
      Session.EventStep d.now d.host d.session t e q s₁ p := by
  -- a task moves, or something else does
  by_cases task : ∃ i, made = .act (.task i)
  · obtain ⟨i, rfl⟩ := task
    rcases Scene.step_task covered i with same | ⟨task, h, s₁, task', there, step, same⟩
    · exact Or.inl (same ▸ here')
    · rw [same] at here'
      -- the task for the event is the one that steps, or it stands where it stood
      rcases step.at there here' with ⟨rfl, rfl⟩ | ⟨-, same | ⟨-, born⟩⟩
      · cases step with
        | event _ q _ _ step => exact Or.inr (Or.inr ⟨q, s₁, rfl, there, step⟩)
      · exact Or.inl same
      · cases born
  · rcases step_tasks (d := d) fun i same => task ⟨i, same⟩ with same | ⟨new, more, named⟩ | ⟨i, rfl⟩
    · exact Or.inl (same ▸ here')
    · rw [more, List.getElem?_append] at here'
      split at here'
      · exact Or.inl here'
      -- beyond the tasks of before there is the new one only
      · rename_i outside
        rw [List.getElem?_singleton] at here'
        split at here'
        · exact Or.inr (Or.inl ⟨named e p (Option.some.inj here'), by omega⟩)
        · simp at here'
    · simp only [Scene.step, Session.cancelRequest] at here'
      split at here'
      -- the token is that of a request, which no event is
      · rw [Session.setTask, List.getElem?_set] at here'
        split at here'
        · split at here' <;> simp at here'
        · exact Or.inl here'
      · exact Or.inl here'

/-- A task for an event stays where it stands, or it takes the step. -/
theorem event_kept {d : Scene} (covered : d.session.sync.Covered) (made : Scene.Move) {p : EventPhase}
    (here : d.session.tasks[t]? = some (.event e p)) :
    (d.step made).session.tasks[t]? = some (.event e p) ∨
    ∃ q s₁, made = .act (.task t) ∧ (d.step made).session.tasks[t]? = some (.event e q) ∧
      Session.EventStep d.now d.host d.session t e p s₁ q := by
  by_cases task : ∃ i, made = .act (.task i)
  · obtain ⟨i, rfl⟩ := task
    rcases Scene.step_task covered i with same | ⟨task, h, s₁, task', there, step, same⟩ <;> rw [same]
    · exact Or.inl here
    · by_cases mine : t = i
      · subst mine
        obtain rfl : .event e p = task := Option.some.inj (here.symm.trans there)
        have here' := step.self here
        cases step with
        | event _ _ _ q step => exact Or.inr ⟨q, s₁, rfl, here', step⟩
      · exact Or.inl (step.other mine here)
  -- without a step the task can only stay
  · rcases (Scene.step_beside fun i same => task ⟨i, same⟩).cases with ⟨-, serves⟩ | ⟨aside, -⟩
    · obtain ⟨c, connection, registry, handlers, passing, diagnostics, -, -, same⟩ := serves
      exact Or.inl (by rw [same]; exact here)
    · exact Or.inl (aside.kept here)

/-- A task that has the lock for an event takes a step when it has a turn. -/
theorem event_acts {d : Scene} (covered : d.session.sync.Covered)
    (here : d.session.tasks[t]? = some (.event e .looking)) :
    ∃ q s₁, (d.step (.act (.task t))).session.tasks[t]? = some (.event e q) ∧
      Session.EventStep d.now d.host d.session t e .looking s₁ q := by
  obtain ⟨⟨s₁, q⟩, stepped⟩ : ∃ result, d.session.stepEvent d.now d.host t e .looking = some result := by
    unfold Session.stepEvent
    cases d.session.current with
    | none => exact ⟨_, rfl⟩
    | some c => exact ⟨_, rfl⟩
  have step := Session.stepEvent_cases covered stepped
  refine ⟨q, s₁, ?_, step⟩
  have here' := (Session.TaskStep.event e .looking s₁ q step).self here
  simpa [Scene.step, Session.step, Session.stepTask, here, stepped, Scene.touch] using here'

/-- An event is taken with the step that it takes when it has the lock, or when it finds that the session
    does not run. -/
theorem untaken_of_step {now : Nat} {h : Host} {s s₁ : Session} {p q : EventPhase}
    (step : Session.EventStep now h s t e p s₁ q) :
    p = .locking ∧ q = .looking ∨
    (Task.event e q).untaken? = none ∧ (p = .locking ∧ s.state ≠ .running ∨ p = .looking ∨
      (Task.event e p).untaken? = none) := by
  -- the stages of an event in their order: taken when the lock is, or dropped
  cases step with
  | dropped _ free idle => exact Or.inr ⟨rfl, Or.inl ⟨rfl, idle⟩⟩
  | entered => exact Or.inl ⟨rfl, rfl⟩
  | stranded | passed | opened | refused | sent | staged | closed | regarded =>
    exact Or.inr ⟨rfl, Or.inr (Or.inl rfl)⟩
  | flushed _ c _ params sync place =>
    rcases place with ⟨rfl, -⟩ | rfl | ⟨language, rfl⟩
    · exact Or.inr ⟨rfl, Or.inr (Or.inl rfl)⟩
    · exact Or.inr ⟨rfl, Or.inr (Or.inr rfl)⟩
    · exact Or.inr ⟨rfl, Or.inr (Or.inr rfl)⟩
  | asked _ c _ _ place =>
    rcases place with ⟨rfl, rfl⟩ | ⟨rfl, language, rfl⟩ <;> exact Or.inr ⟨rfl, Or.inr (Or.inr rfl)⟩
  | warned _ _ c _ place =>
    rcases place with rfl | ⟨language, rfl⟩ <;> exact Or.inr ⟨rfl, Or.inr (Or.inr rfl)⟩
  | saved _ _ _ c _ place => rcases place with rfl | rfl <;> exact Or.inr ⟨rfl, Or.inr (Or.inr rfl)⟩
  | left _ c _ place =>
    rcases place with rfl | rfl | ⟨language, rfl⟩ <;> exact Or.inr ⟨rfl, Or.inr (Or.inr rfl)⟩
  | ahead _ c params _ _ can next =>
    rcases next with ⟨uri, reason, -, rfl, -⟩ | ⟨uri, text, -, rfl, -⟩ | ⟨rfl, -⟩ <;>
      exact Or.inr ⟨rfl, Or.inr (Or.inr rfl)⟩
  | wrote => exact Or.inr ⟨rfl, Or.inr (Or.inr rfl)⟩
  | failed _ c _ error place =>
    rcases place with ⟨params, rfl⟩ | ⟨n, rfl⟩ <;> exact Or.inr ⟨rfl, Or.inr (Or.inr rfl)⟩

theorem not_step_ended {now : Nat} {h : Host} {s s₁ : Session} {result : Except ClientError Unit}
    {q : EventPhase} : ¬ Session.EventStep now h s t e (.ended result) s₁ q := by
  intro step
  cases step with
  | flushed _ _ _ _ _ place | asked _ _ _ _ place | warned _ _ _ _ place | saved _ _ _ _ _ place
  | left _ _ _ place | failed _ _ _ _ place => simp at place

/-- The session has one task at most that asks for an operation and has not ended: the one for the event
    that it was told of last. -/
structure Orderly (r : Relay) : Prop where
  sole : ∀ (t : Nat) (e : DocumentEvent) (p : EventPhase),
    r.scene.session.tasks[t]? = some (.event e p) → e.op?.isSome = true →
    r.flight = some t ∨ ∃ result, p = .ended result
  flies : ∀ t, r.flight = some t → ∃ e p, r.scene.session.tasks[t]? = some (.event e p) ∧
    e.op?.isSome = true
  queued : ∀ e ∈ r.queue, e.op?.isSome = true

theorem Edited.session {d : Scene} {made : Scene.Move} (edit : Edited d.host made events) :
    (d.step made).session = d.session := by
  cases edit <;> rfl

theorem Edited.asks {h : Host} {made : Scene.Move} (edit : Edited h made events) :
    ∀ e ∈ events, e.op?.isSome = true := by
  cases edit <;> simp [DocumentEvent.op?]

/-- When a session is done with the last event, it has ended. -/
theorem ended_of_isIdle (idle : r.isIdle = true) (flight : r.flight = some t) {p : EventPhase}
    (here : r.scene.session.tasks[t]? = some (.event e p)) : ∃ result, p = .ended result := by
  simp only [isIdle, flight, Option.all_some, here, Option.any_some] at idle
  unfold Manager.hasEnded at idle
  split at idle <;> simp_all

variable {made : Option Scene.Move}

theorem Effect.orderly (effect : Effect r made events r') (covered : r.scene.session.sync.Covered)
    (orderly : r.Orderly) : r'.Orderly := by
  cases effect with
  | stayed => exact orderly
  | edited made _ edit =>
    refine ⟨?_, ?_, fun e among => ?_⟩
    · rw [edit.session]
      exact orderly.sole
    · rw [edit.session]
      exact orderly.flies
    -- what waits was given out with an event of its own kind
    · rcases List.mem_append.mp among with among | among
      · exact orderly.queued e among
      · exact edit.asks e among
  | passed e queue idle first =>
    have asks : e.op?.isSome = true := orderly.queued e (by simp [first])
    refine ⟨fun t e' p here' asks' => ?_, fun t flight => ?_, fun e' among => ?_⟩
    · rcases event_at covered _ here' with here | ⟨-, rfl⟩ | ⟨q, s₁, other, -⟩
      -- the event in flight has ended, so no other is under way
      · refine Or.inr ?_
        rcases orderly.sole t e' p here asks' with flight | ended
        · exact ended_of_isIdle idle flight here
        · exact ended
      · exact Or.inl rfl
      · simp at other
    · obtain rfl := Option.some.inj flight
      exact ⟨e, .locking, by simp [Scene.step, Scene.spawn, Session.spawn], asks⟩
    · exact orderly.queued e' (by simp [first, among])
  | moved made apart =>
    refine ⟨fun t e p here' asks => ?_, fun t flight => ?_, orderly.queued⟩
    -- no event begins by itself, so the one in flight is still the only one
    · rcases event_at covered _ here' with here | ⟨rfl, -⟩ | ⟨q, s₁, rfl, here, step⟩
      · exact orderly.sole t e p here asks
      · simp [Scene.Move.isApart] at apart
        simp [apart] at asks
      · rcases orderly.sole t e q here asks with flight | ⟨result, rfl⟩
        · exact Or.inl flight
        · exact (not_step_ended step).elim
    -- the event in flight stays where it is, or takes its step
    · obtain ⟨e, p, here, asks⟩ := orderly.flies t flight
      rcases event_kept covered made here with here' | ⟨q, s₁, -, here', -⟩
      · exact ⟨e, p, here', asks⟩
      · exact ⟨e, q, here', asks⟩

theorem orderly_after (moves : List Move) : ((machine setup).after moves).Orderly := by
  refine (machine setup).run_induction (fun _ r => r.Orderly) ?_ (fun moves move orderly => ?_) moves
  · constructor <;> simp [machine, Scene.machine, Session.ofConfig]
  · exact (effect_after setup moves move).orderly (covered_after moves) orderly

/-! ## The events that were not taken -/

/-- A move takes the first event that was not taken: the task of the event has the lock on the documents,
    or it finds that the session does not run. -/
inductive Takes (r : Relay) (made : Option Scene.Move) (e : DocumentEvent) : Prop where
  | dropped (idle : r.scene.session.state ≠ .running)
  | read (i : Nat) (acts : made = some (.act (.task i)))
      (here : r.scene.session.tasks[i]? = some (.event e .looking)) (asks : e.op?.isSome = true)

/-- **One move and the events.**  A move takes none of the events that were not taken so far, and may give
    out more, or it takes the first of them. -/
theorem Effect.untaken (effect : Effect r made events r') (covered : r.scene.session.sync.Covered)
    (orderly : r.Orderly) :
    (r'.untaken = r.untaken ++ events ∧ ∀ (i : Nat) (e : DocumentEvent),
      made = some (.act (.task i)) → r.scene.session.tasks[i]? = some (.event e .looking) →
      e.op? = none) ∨
    events = [] ∧ ∃ e, r.untaken = e :: r'.untaken ∧ Takes r made e := by
  cases effect with
  | stayed => exact Or.inl ⟨by simp, by simp⟩
  | edited made _ edit =>
    refine Or.inl ⟨by simp [Relay.untaken, edit.session], fun i e acts => ?_⟩
    obtain rfl := Option.some.inj acts
    cases edit
  | passed e queue idle first =>
    refine Or.inl ⟨?_, by simp⟩
    have flown : (r.flight.bind (r.scene.session.tasks[·]?)).bind Task.untaken? = none := by
      cases flight : r.flight with
      | none => rfl
      | some t =>
        obtain ⟨e', p, here, -⟩ := orderly.flies t flight
        obtain ⟨result, rfl⟩ := ended_of_isIdle idle flight here
        simp [here, Task.untaken?]
    simp [Relay.untaken, flown, first, Scene.step, Scene.spawn, Session.spawn, Task.untaken?]
  | moved made apart =>
    rcases Option.eq_none_or_eq_some r.flight with flight | ⟨t, flight⟩
    · refine Or.inl ⟨by simp [Relay.untaken, flight], fun i e acts here => ?_⟩
      by_contra asks
      rcases orderly.sole i e _ here (Option.isSome_iff_ne_none.mpr asks) with flies | ⟨result, place⟩
      · simp [flight] at flies
      · simp at place
    · obtain ⟨e, p, here, asks⟩ := orderly.flies t flight
      -- whoever has the lock for an event that asks for an operation is the task in flight
      have mine : ∀ (i : Nat) (e' : DocumentEvent),
          r.scene.session.tasks[i]? = some (.event e' .looking) → e'.op?.isSome = true → i = t := by
        intro i e' there asks'
        rcases orderly.sole i e' _ there asks' with flies | ⟨result, place⟩
        · exact Option.some.inj (flies.symm.trans flight)
        · simp at place
      have same : ∀ p', (r.scene.step made).session.tasks[t]? = some (.event e p') →
          (Task.event e p').untaken? = (Task.event e p).untaken? →
          Relay.untaken { r with scene := r.scene.step made } = r.untaken ++ [] := by
        intro p' here' kept
        simp [Relay.untaken, flight, here, here', kept]
      have took : ∀ p', (r.scene.step made).session.tasks[t]? = some (.event e p') →
          (Task.event e p').untaken? = none → (Task.event e p).untaken? = some e →
          r.untaken = e :: Relay.untaken { r with scene := r.scene.step made } := by
        intro p' here' gone was
        simp [Relay.untaken, flight, here, here', gone, was]
      by_cases acts : made = .act (.task t) ∧ p = .looking
      · obtain ⟨rfl, rfl⟩ := acts
        obtain ⟨q, s₁, here', step⟩ := event_acts covered here
        rcases untaken_of_step step with ⟨place, -⟩ | ⟨gone, -⟩
        · simp at place
        · exact Or.inr ⟨rfl, e, took q here' gone rfl, .read t rfl here asks⟩
      · have idle : ∀ (i : Nat) (e' : DocumentEvent), some made = some (.act (.task i)) →
            r.scene.session.tasks[i]? = some (.event e' .looking) → e'.op? = none := by
          intro i e' made' there
          by_contra asks'
          obtain rfl := mine i e' there (Option.isSome_iff_ne_none.mpr asks')
          obtain ⟨-, rfl⟩ := by simpa using here.symm.trans there
          exact acts ⟨Option.some.inj made', rfl⟩
        rcases event_kept covered made here with here' | ⟨q, s₁, rfl, here', step⟩
        · exact Or.inl ⟨same p here' rfl, idle⟩
        · rcases untaken_of_step step with ⟨rfl, rfl⟩ | ⟨gone, ⟨rfl, stopped⟩ | rfl | none⟩
          · exact Or.inl ⟨same .looking here' rfl, idle⟩
          · exact Or.inr ⟨rfl, e, took q here' gone rfl, .dropped stopped⟩
          · exact absurd ⟨rfl, rfl⟩ acts
          · exact Or.inl ⟨same q here' (gone.trans none.symm), idle⟩

theorem untaken_step (setup : Scene.Setup) (moves : List Move) (move : Move) :
    let r := (machine setup).after moves
    let r' := (machine setup).after (moves ++ [move])
    (r'.untaken = r.untaken ++ r.emitted move ∧ ∀ (i : Nat) (e : DocumentEvent),
      r.sceneMove? move = some (.act (.task i)) →
      r.scene.session.tasks[i]? = some (.event e .looking) → e.op? = none) ∨
    r.emitted move = [] ∧ ∃ e, r.untaken = e :: r'.untaken ∧ Takes r (r.sceneMove? move) e := by
  intro r r'
  exact (effect_after setup moves move).untaken (covered_after moves) (orderly_after moves)

/-- When the session has dealt with all events, it has taken all of them. -/
theorem untaken_eq_nil (orderly : r.Orderly) (queue : r.queue = []) (idle : r.isIdle = true) :
    r.untaken = [] := by
  cases flight : r.flight with
  | none => simp [Relay.untaken, flight, queue]
  | some t =>
    obtain ⟨e, p, here, -⟩ := orderly.flies t flight
    obtain ⟨result, rfl⟩ := ended_of_isIdle idle flight here
    simp [Relay.untaken, flight, here, queue, Task.untaken?]

end Relay

end LanguageClient
