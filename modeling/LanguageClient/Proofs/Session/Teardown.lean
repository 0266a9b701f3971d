import LanguageClient.Proofs.Session.Stage
/-!
# Taking down what a start has set up

A start that fails takes down what it has set up, one thing after another; `TakenDown` says what is gone
by where the teardown stands.  Nobody else sets up any of it while the start is under way (`Bystands`),
so at the end of the teardown all is gone (`shed_after`).

The registry is the one exception: a handler of the server may still register something after the
teardown has cleared the registry (`step_registry`).
-/

namespace LanguageClient

/-- What is registered nowhere cannot be taken away. -/
theorem CapabilityRegistry.unregister_empty (us : List Unregistration) :
    CapabilityRegistry.unregister {} us = {} := by
  have nothing : us.foldl (fun held u => held.filter (·.id ≠ u.id)) [] = ([] : List Registration) := by
    induction us with
    | nil => rfl
    | cons u us ih => simpa using ih
  exact congrArg CapabilityRegistry.mk nothing

/-- Nothing leads back to the initial state. -/
theorem SessionState.Next.ne_initial {state state' : SessionState} (next : Next state state') :
    state' ≠ .initial := by
  cases next <;> simp

/-- Only what runs or stops is stopped next. -/
theorem SessionState.Next.before_stopped {state : SessionState} (next : Next state .stopped) :
    state = .running ∨ state = .stopping := by
  cases next <;> simp

namespace Session

variable {now : Nat} {h h' : Host} {s s' s₁ : Session} {t i : Nat} {task task' : Task}

/-! ## What a session holds -/

/-- What a step does to the process, the capabilities and the registry. -/
inductive Keeping (s : Session) (task : Task) (s' : Session) : Prop where
  | kept (capabilities : s'.capabilities = s.capabilities) (process : s'.hasProcess = s.hasProcess)
      (registry : s'.registry = s.registry)
  | supplied (place : (∃ c r, task = .start (.recording c r)) ∨ task = .start .holding)
      (registry : s'.registry = s.registry)
  | torn (capabilities : s'.capabilities = s.capabilities ∨ s'.capabilities = none)
      (process : s'.hasProcess = s.hasProcess ∨ s'.hasProcess = false)
      (registry : s'.registry = s.registry ∨ s'.registry = {})

theorem TeardownStep.keeping {p p' : Teardown} (step : TeardownStep s p s₁ p')
    (capabilities : s'.capabilities = s₁.capabilities) (process : s'.hasProcess = s₁.hasProcess)
    (registry : s'.registry = s₁.registry) : Keeping s task s' := by
  cases step with
  | cleared => exact .torn (Or.inl capabilities) (Or.inl process) (Or.inr registry)
  | forgot => exact .torn (Or.inr capabilities) (Or.inl process) (Or.inl registry)
  | reaped => exact .torn (Or.inl capabilities) (Or.inr process) (Or.inl registry)
  | _ => exact .kept capabilities process registry

theorem Called.keeping {c : Nat} {call call' : Call} (step : Called now s₁ c call s' call')
    (capabilities : s₁.capabilities = s.capabilities) (process : s₁.hasProcess = s.hasProcess)
    (registry : s₁.registry = s.registry) : Keeping s task s' := by
  obtain ⟨connection, rfl⟩ := step.eq_setConnection
  exact .kept capabilities process registry

theorem StartStep.keeping {p p' : StartPhase} (step : StartStep now h s t p h' s' p') :
    Keeping s (.start p) s' := by
  cases step with
  | recorded c r => exact .supplied (Or.inl ⟨c, r, rfl⟩) rfl
  | held => exact .supplied (Or.inr rfl) rfl
  | published c _ call begun | retried c attempt _ _ call place begun => exact begun.keeping rfl rfl rfl
  | called c attempt call _ call' unanswered step => exact step.keeping rfl rfl rfl
  | concluded c attempt call result _ _ _ ended next => cases next <;> exact .kept rfl rfl rfl
  | answered c attempt call _ call' result _ _ _ unanswered step ended next =>
    obtain ⟨connection, rfl⟩ := step.eq_setConnection
    cases next <;> exact .kept rfl rfl rfl
  | listed c _ _ next | announced c params rest _ _ can next => cases next <;> exact .kept rfl rfl rfl
  | tore e t _ t' step | failed e t _ step | failedQuietly e t _ step | failedLate e t _ step =>
    exact step.keeping rfl rfl rfl
  | _ => exact .kept rfl rfl rfl

theorem TaskStep.keeping (step : TaskStep now h s t task h' s' task') : Keeping s task s' := by
  cases step with
  | start p _ _ p' step => exact step.keeping
  | stop p _ p' step =>
    cases step with
    | asked c _ call free begun => exact begun.keeping rfl rfl rfl
    | called c call _ call' unanswered step => exact step.keeping rfl rfl rfl
    | tore t _ t' step | stopped t _ step => exact step.keeping rfl rfl rfl
    | _ => exact .kept rfl rfl rfl
  | watch c p _ _ p' step =>
    cases step with
    | tore t _ t' step => exact step.keeping rfl rfl rfl
    | _ => exact .kept rfl rfl rfl
  | event e p _ p' step =>
    cases step with
    | ahead e c params _ _ can next =>
      rcases next with ⟨uri, reason, -, -, rfl⟩ | ⟨uri, text, -, -, rfl⟩ | ⟨-, rfl⟩ <;>
        exact .kept rfl rfl rfl
    | _ => exact .kept rfl rfl rfl
  | delivery uri generation deadline p _ p' step => cases step <;> exact .kept rfl rfl rfl
  | query q p _ p' step =>
    cases step with
    | ahead c _ _ _ place next =>
      cases next with
      | flushed => exact .kept rfl rfl rfl
      | asked _ call nothing begun => exact begun.keeping rfl rfl rfl
    | wrote c params _ call can begun => exact begun.keeping rfl rfl rfl
    | called c call _ call' unanswered step => exact step.keeping rfl rfl rfl
    | _ => exact .kept rfl rfl rfl
  | request method params cancelled p _ p' step =>
    cases step with
    | asked c _ call current begun => exact begun.keeping rfl rfl rfl
    | called c call _ call' unanswered step => exact step.keeping rfl rfl rfl
    | _ => exact .kept rfl rfl rfl

/-! ## What is gone stays gone -/

/-- What a session has given up it does not get back. -/
structure Sheds (s s' : Session) : Prop where
  current : s.current = none → s'.current = none
  closed : s.current = none → (∀ uri, s.sync.isAnnounced uri = false) →
    ∀ uri, s'.sync.isAnnounced uri = false
  capabilities : s.capabilities = none → s'.capabilities = none
  process : s.hasProcess = false → s'.hasProcess = false

theorem Sheds.of_eq (current : s'.current = s.current) (sync : s'.sync = s.sync)
    (capabilities : s'.capabilities = s.capabilities) (process : s'.hasProcess = s.hasProcess) :
    Sheds s s' := by
  constructor
  · rw [current]; exact id
  · rw [sync]; exact fun _ closed => closed
  · rw [capabilities]; exact id
  · rw [process]; exact id

/-- Without a connection no event opens anything. -/
theorem EventStep.stays_closed {e : DocumentEvent} {p p' : EventPhase}
    (step : EventStep now h s t e p s' p') (covered : s.sync.Covered) (unused : s.current = none)
    (closed : ∀ uri, s.sync.isAnnounced uri = false) (uri : String) :
    s'.sync.isAnnounced uri = false := by
  cases step with
  | opened _ c _ _ current | sent _ c _ _ current | staged _ c _ _ current
  | closed _ c _ _ current => simp [unused] at current
  | flushed _ c _ params sync place told =>
    have effect := DocumentSync.step_transition covered (.flush e.uri)
    rw [told] at effect
    exact (effect.isAnnounced_of_released uri).trans (closed uri)
  | ahead _ c params _ _ can next =>
    rcases next with ⟨_, reason, -, -, rfl⟩ | ⟨_, text, -, -, rfl⟩ | ⟨-, rfl⟩ <;> exact closed uri
  | _ => exact closed uri

/-- A task that is no start opens nothing without a connection. -/
theorem TaskStep.stays_closed (step : TaskStep now h s t task h' s' task')
    (covered : s.sync.Covered) (other : ∀ p, task ≠ .start p) (unused : s.current = none)
    (closed : ∀ uri, s.sync.isAnnounced uri = false) (uri : String) :
    s'.sync.isAnnounced uri = false := by
  -- a start apart, only an event opens a document
  by_cases event : ∃ e p, task = .event e p
  · obtain ⟨e, p, rfl⟩ := event
    cases step with
    | event _ _ _ _ step => exact step.stays_closed covered unused closed uri
  · cases step.sync_use with
    | same sync => rw [sync]; exact closed uri
    | taken uri' generation free sync =>
      have effect := DocumentSync.step_transition covered (.takeStaged uri' generation)
      rw [sync]
      exact (effect.isAnnounced_of_released uri).trans (closed uri)
    | configured c kind free place => exact absurd place (other _)
    | reset free sync => rw [sync]; rfl
    | held op holds asks sync =>
      rw [sync]
      cases op with
      | «open» d =>
        rcases asks with ⟨p, rfl, -⟩ | rfl
        · exact absurd rfl (other p)
        · exact absurd ⟨_, _, rfl⟩ event
      | change | close =>
        obtain rfl : task = .event _ .looking := asks
        exact absurd ⟨_, _, rfl⟩ event
      | flush uri' =>
        have effect := DocumentSync.step_transition covered (.flush uri')
        exact (effect.isAnnounced_of_released uri).trans (closed uri)
      | takeStaged uri' generation =>
        have effect := DocumentSync.step_transition covered (.takeStaged uri' generation)
        exact (effect.isAnnounced_of_released uri).trans (closed uri)
      | _ => exact asks.elim

/-- A task that is no start sets nothing up. -/
theorem TaskStep.sheds (step : TaskStep now h s t task h' s' task') (covered : s.sync.Covered)
    (other : ∀ p, task ≠ .start p) : Sheds s s' := by
  refine ⟨fun none => ?_, step.stays_closed covered other, fun none => ?_, fun none => ?_⟩
  · rcases step.current_cases with ⟨-, gone⟩ | same | ⟨c, place, -⟩
    · exact gone
    · exact same.trans none
    · exact absurd place (other _)
  · cases step.keeping with
    | kept capabilities => exact capabilities.trans none
    | supplied place => exact (place.elim (fun ⟨_, _, place⟩ => other _ place) (other _)).elim
    | torn capabilities => exact capabilities.elim (·.trans none) id
  · cases step.keeping with
    | kept _ process => exact process.trans none
    | supplied place => exact (place.elim (fun ⟨_, _, place⟩ => other _ place) (other _)).elim
    | torn _ process => exact process.elim (·.trans none) id

/-- A start that is not under way waits for the lock on starting; then it ends at once, or it begins. -/
theorem StartStep.of_idle {p p' : StartPhase} (step : StartStep now h s t p h' s' p')
    (idle : ¬ p.UnderWay) : s.starter = none ∧ ((s' = s ∧ ¬ p'.UnderWay) ∨
      s' = { s with state := .starting, starter := some t, reported := false } ∧ p' = .opening) := by
  cases step with
  | passed free | refused free => exact ⟨free, Or.inl ⟨rfl, id⟩⟩
  | begun free => exact ⟨free, Or.inr ⟨rfl, rfl⟩⟩
  | retried _ _ _ _ _ place =>
    rcases place with ⟨failure, rfl⟩ | ⟨failure, deadline, rfl⟩ <;> exact (idle trivial).elim
  | gaveUp _ _ _ _ place =>
    rcases place with ⟨reply, rfl⟩ | ⟨deadline, reply, rfl⟩ <;> exact (idle trivial).elim
  | unwritten _ _ _ place =>
    rcases place with ⟨kind, rfl⟩ | ⟨params, rest, rfl⟩ <;> exact (idle trivial).elim
  | _ => exact (idle trivial).elim

theorem StartStep.sheds {p p' : StartPhase} (step : StartStep now h s t p h' s' p')
    (idle : ¬ p.UnderWay) : Sheds s s' := by
  obtain ⟨-, ⟨rfl, -⟩ | ⟨rfl, -⟩⟩ := step.of_idle idle <;> exact .of_eq rfl rfl rfl rfl

/-- A start that begins makes the session starting. -/
theorem StartStep.begins {p p' : StartPhase} (step : StartStep now h s t p h' s' p')
    (idle : ¬ p.UnderWay) (on : p'.UnderWay) : p' = .opening ∧ s'.state = .starting := by
  obtain ⟨-, ⟨-, ended⟩ | ⟨rfl, rfl⟩⟩ := step.of_idle idle
  · exact absurd on ended
  · exact ⟨rfl, rfl⟩

/-- What somebody does beside a start that is under way: he sets nothing up, and moves the state only to
    halt the session. -/
structure Bystands (s s' : Session) : Prop extends Sheds s s' where
  state : s'.state = s.state ∨ s'.state = .stopping ∨
    s'.state = .stopped ∧ (s.state = .running ∨ s.state = .stopping)

theorem TaskStep.bystands {p : StartPhase} (step : TaskStep now h s t task h' s' task')
    (covered : s.sync.Covered) (guarded : s.Guarded) (there : s.tasks[t]? = some task)
    (here : s.tasks[i]? = some (.start p)) (on : p.UnderWay) (other : i ≠ t) : Bystands s s' := by
  -- the lock on starting is taken, so this is no start that is under way or begins
  have alone : ∀ {q}, task = .start q → ¬ q.UnderWay := by
    rintro q rfl also
    exact other (guarded.unique here on there also)
  have sheds : Sheds s s' := by
    by_cases start : ∃ q, task = .start q
    · obtain ⟨q, rfl⟩ := start
      cases step with
      | start _ _ _ q' step => exact step.sheds (alone rfl)
    · exact step.sheds covered fun q place => start ⟨q, place⟩
  refine ⟨sheds, ?_⟩
  rcases step.state_cases with same | ⟨next, ran, failed, begun, -⟩
  · exact Or.inl same
  · cases state : s'.state with
    | initial => exact absurd state next.ne_initial
    | starting =>
      obtain rfl := begun state
      cases step with
      | start _ _ _ _ step =>
        have free := (step.of_idle id).1
        simp [guarded i p here on] at free
    | running =>
      obtain ⟨c, kind, rfl, -⟩ := ran state
      exact (alone rfl trivial).elim
    | startFailed =>
      obtain ⟨e, down, rfl⟩ := failed state
      exact (alone rfl trivial).elim
    | stopping => exact Or.inr (Or.inl rfl)
    | stopped => exact Or.inr (Or.inr ⟨rfl, (state ▸ next).before_stopped⟩)

/-- While a start is under way, somebody else stands by, or the start takes a step. -/
theorem Moved.of_underWay {p : StartPhase} (moved : Moved now h s h' s') (covered : s.sync.Covered)
    (guarded : s.Guarded) (here : s.tasks[i]? = some (.start p)) (on : p.UnderWay) :
    (Bystands s s' ∧ s'.tasks[i]? = some (.start p)) ∨
    ∃ s₁ p', StartStep now h s i p h' s₁ p' ∧ s' = s₁.setTask i (.start p') := by
  cases moved with
  | served _ _ serves =>
    obtain ⟨c, connection, registry, handlers, passing, diagnostics, -, -, rfl⟩ := serves
    exact Or.inl ⟨⟨.of_eq rfl rfl rfl rfl, Or.inl rfl⟩, here⟩
  | task t task _ s₁ task' there step =>
    by_cases same : i = t
    · subst same
      obtain rfl : .start p = task := Option.some.inj (here.symm.trans there)
      cases step with
      | start _ _ _ p' step => exact Or.inr ⟨s₁, p', step, rfl⟩
    · have apart := step.bystands covered guarded there here on same
      exact Or.inl ⟨⟨⟨apart.current, apart.closed, apart.capabilities, apart.process⟩, apart.state⟩,
        step.other same here⟩

/-! ## The registry -/

theorem registry_stepNotification (c : Nat) (n : Notification) :
    (s.stepNotification h c n).2.registry = s.registry := by
  unfold stepNotification
  split
  · split
    · rfl
    · split <;> rfl
  · rfl
  · rfl
  · rfl

theorem registry_stepReader {c : Nat} (step : s.stepReader h c = some (h', s')) :
    s'.registry = s.registry := by
  simp only [stepReader] at step
  split at step
  · rename_i n _
    have noticed := registry_stepNotification (h := h) (s := s) c n
    have same : s.stepNotification h c n = (h', s') := Option.some.inj step
    rwa [same] at noticed
  · obtain ⟨connection, read, same⟩ := Option.map_eq_some_iff.mp step
    obtain ⟨-, rfl⟩ := Prod.mk.inj same
    rfl

theorem registry_finishFiles {c j : Nat} (step : s.finishFiles h c j = some s') :
    s'.registry = s.registry := by
  have settled : ∀ result, (s.settleHandler c j result).registry = s.registry := by
    intro result
    unfold settleHandler
    split <;> rfl
  rcases finishFiles_cases step with ⟨base, -, rfl⟩ | ⟨uri, path, -, rfl⟩ <;> exact settled _

theorem registry_beginHandler (c j : Nat) (r : Request) :
    (s.beginHandler h c j r).2.registry = s.registry := by
  have read : ∀ {α : Type} (params : Except ClientError α) (go : α → Session),
      (∀ a, (go a).registry = s.registry) → (s.withParams c j params go).registry = s.registry := by
    intro α params go goes
    cases params with
    | ok a => exact goes a
    | error e => rfl
  unfold beginHandler
  split
  · exact read _ _ fun _ => rfl
  · exact read _ _ fun _ => rfl
  · rfl
  · rfl
  · simp only [beginListing]
    split
    · rfl
    · exact read _ _ fun params => by split <;> rfl
  · simp only [beginContent]
    split
    · rfl
    · exact read _ _ fun _ => rfl
  · rfl

/-- A handler puts something into an empty registry only when it registers. -/
theorem registry_continueHandler {c j : Nat} {cancelled : Bool} {p : HandlerPhase}
    (step : s.continueHandler h c j cancelled p = some s') (empty : s.registry = {}) :
    s'.registry = {} ∨ ∃ registrations, p = .registering registrations := by
  unfold continueHandler at step
  split at step
  · exact Or.inr ⟨_, rfl⟩
  · rename_i unregistrations
    obtain rfl := Option.some.inj step
    refine Or.inl ?_
    change s.registry.unregister unregistrations = {}
    rw [empty]
    exact CapabilityRegistry.unregister_empty unregistrations
  · obtain rfl := Option.some.inj step
    exact Or.inl empty
  · simp at step
  · split at step
    · obtain rfl := Option.some.inj step
      exact Or.inl empty
    · simp at step
  · split at step <;> obtain rfl := Option.some.inj step <;> exact Or.inl empty
  · split at step
    · obtain rfl := Option.some.inj step
      exact Or.inl empty
    · simp at step

theorem registry_stepHandler {c j : Nat} (step : s.stepHandler h c j = some (h', s'))
    (empty : s.registry = {}) :
    s'.registry = {} ∨
      ∃ registrations, s.handlers.get? (c, j) = some (.registering registrations) := by
  simp only [stepHandler, Option.bind_eq_bind] at step
  obtain ⟨job, -, step⟩ := Option.bind_eq_some_iff.mp step
  obtain ⟨-, -, step⟩ := Option.bind_eq_some_iff.mp step
  split at step
  · have begun := registry_beginHandler (h := h) (s := s) c j job.request
    have same : s.beginHandler h c j job.request = (h', s') := Option.some.inj step
    rw [same] at begun
    exact Or.inl (begun.trans empty)
  · rename_i p place
    obtain ⟨s₁, continued, same⟩ := Option.bind_eq_some_iff.mp step
    obtain ⟨-, rfl⟩ := by simpa using same
    rcases registry_continueHandler continued empty with kept | ⟨registrations, rfl⟩
    · exact Or.inl kept
    · exact Or.inr ⟨registrations, place⟩

/-- A task puts nothing into the registry. -/
theorem TaskStep.registry (step : TaskStep now h s t task h' s' task') (empty : s.registry = {}) :
    s'.registry = {} := by
  cases step.keeping with
  | kept _ _ registry | supplied _ registry => exact registry.trans empty
  | torn _ _ registry => exact registry.elim (·.trans empty) id

/-! ## What is gone by when -/

/-- What is gone when a teardown has come to a point. -/
def TakenDown (s : Session) : Teardown → Prop
  | .detaching => True
  | .closing .. | .resetting => s.current = none
  | .clearing | .forgetting => s.current = none ∧ ∀ uri, s.sync.isAnnounced uri = false
  | .reaping =>
    s.current = none ∧ (∀ uri, s.sync.isAnnounced uri = false) ∧ s.capabilities = none
  | .ended =>
    s.current = none ∧ (∀ uri, s.sync.isAnnounced uri = false) ∧ s.capabilities = none ∧
      s.hasProcess = false

theorem TakenDown.of_sheds {down : Teardown} (gone : s.TakenDown down) (sheds : Sheds s s') :
    s'.TakenDown down := by
  cases down with
  | detaching => trivial
  | closing | resetting => exact sheds.current gone
  | clearing | forgetting => exact ⟨sheds.current gone.1, sheds.closed gone.1 gone.2⟩
  | reaping =>
    obtain ⟨unused, closed, incapable⟩ := gone
    exact ⟨sheds.current unused, sheds.closed unused closed, sheds.capabilities incapable⟩
  | ended =>
    obtain ⟨unused, closed, incapable, childless⟩ := gone
    exact ⟨sheds.current unused, sheds.closed unused closed, sheds.capabilities incapable,
      sheds.process childless⟩

theorem TeardownStep.takenDown {down down' : Teardown} (step : TeardownStep s down s' down')
    (gone : s.TakenDown down) : s'.TakenDown down' := by
  cases step with
  | unused none => exact none
  | detached => rfl
  | closed c p p' connection _ step next =>
    have unused : s.current = none := gone
    rcases next with rfl | rfl <;> exact unused
  | closedBefore => exact gone
  | reset => exact ⟨gone, fun _ => rfl⟩
  | cleared => exact gone
  | forgot => exact ⟨gone.1, gone.2, rfl⟩
  | reaped => exact ⟨gone.1, gone.2.1, gone.2.2, rfl⟩

/-- What a start has taken down by when: all, when it returns an error. -/
def Shed (s : Session) : StartPhase → Prop
  | .failing _ down => s.TakenDown down
  | .reporting _ | .ended (.error _) => s.TakenDown .ended
  | _ => True

theorem Shed.of_sheds {p : StartPhase} (shed : s.Shed p) (sheds : Sheds s s') : s'.Shed p := by
  unfold Shed at shed ⊢
  split at shed <;> first
    | exact TakenDown.of_sheds shed sheds
    | trivial

/-- A start that is under way takes down what it has set up before it returns an error. -/
theorem StartStep.shed {p p' : StartPhase} (step : StartStep now h s t p h' s' p')
    (on : p.UnderWay) (shed : s.Shed p) : s'.Shed p' := by
  cases step with
  | passed | refused | begun => exact on.elim
  | tore e down _ down' step => exact step.takenDown shed
  | failed e down s₁ step | failedQuietly e down s₁ step | failedLate e down s₁ step =>
    exact (step.takenDown shed).of_sheds (.of_eq rfl rfl rfl rfl)
  | reported e =>
    have gone : s.TakenDown .ended := shed
    exact gone.of_sheds (.of_eq rfl rfl rfl rfl)
  | connected outcome rest _ next => rcases next with rfl | rfl | ⟨reason, rfl⟩ <;> trivial
  | concluded _ _ _ _ _ _ _ _ next | answered _ _ _ _ _ _ _ _ _ _ _ _ next =>
    cases next <;> trivial
  | listed _ _ _ next | announced _ _ _ _ _ _ next => cases next <;> trivial
  | _ => trivial

end Session

namespace Scene

variable {setup : Setup} {moves : List Move} {d d' : Scene} {t : Nat} {p : StartPhase}

/-! ## Along a run -/

/-- While a start is under way, somebody else stands by, or the start takes a step. -/
theorem Change.of_underWay (change : Change d d') (covered : d.session.sync.Covered)
    (guarded : d.session.Guarded) (here : d.session.tasks[t]? = some (.start p))
    (on : p.UnderWay) :
    (Session.Bystands d.session d'.session ∧ d'.session.tasks[t]? = some (.start p)) ∨
    ∃ h s₁ p', Session.StartStep d.now d.host d.session t p h s₁ p' ∧
      d'.session = s₁.setTask t (.start p') := by
  rcases change.cases with ⟨-, moved⟩ | ⟨aside, -⟩
  · rcases moved.of_underWay covered guarded here on with apart | ⟨s₁, p', step, same⟩
    · exact Or.inl apart
    · exact Or.inr ⟨_, s₁, p', step, same⟩
  · refine Or.inl ⟨?_, aside.kept here⟩
    rw [aside.rest]
    exact ⟨.of_eq rfl rfl rfl rfl, Or.inl rfl⟩

/-- Where a start that is under way stands after a change: where it stood, while somebody else does
    something, or where its own step has led it. -/
theorem Change.underWay_cases (change : Change d d') (covered : d.session.sync.Covered)
    (guarded : d.session.Guarded) (here' : d'.session.tasks[t]? = some (.start p))
    (on : p.UnderWay) :
    (d.session.tasks[t]? = some (.start p) ∧ Session.Bystands d.session d'.session) ∨
    ∃ q h s₁, d.session.tasks[t]? = some (.start q) ∧
      Session.StartStep d.now d.host d.session t q h s₁ p ∧
      d'.session = s₁.setTask t (.start p) := by
  -- if the start was under way before, it either stood still or took its step
  have stepped : d.session.tasks[t]? = some (.start p) →
      (d.session.tasks[t]? = some (.start p) ∧ Session.Bystands d.session d'.session) ∨
      ∃ q h s₁, d.session.tasks[t]? = some (.start q) ∧
        Session.StartStep d.now d.host d.session t q h s₁ p ∧
        d'.session = s₁.setTask t (.start p) := by
    intro here
    rcases change.of_underWay covered guarded here on with ⟨apart, -⟩ | ⟨h, s₁, p', step, result⟩
    · exact Or.inl ⟨here, apart⟩
    · have there := (Session.TaskStep.start p h s₁ p' step).self here
      rw [← result, here'] at there
      obtain rfl := Task.start.inj (Option.some.inj there)
      exact Or.inr ⟨p, h, s₁, here, step, result⟩
  cases change.came here' with
  | stayed _ here => exact stepped here
  -- who has just been called stands at its first phase, with nothing in hand
  | called _ absent fresh =>
    cases fresh
    exact on.elim
  | born _ absent born => cases born
  | stepped _ _ s₁ here step result =>
    generalize d'.host = h' at step
    cases step with
    | start q _ _ _ step => exact Or.inr ⟨q, _, s₁, here, step, result⟩

/-- A move puts something into an empty registry only when a handler registers. -/
theorem step_registry {d : Scene} (covered : d.session.sync.Covered) (move : Move)
    (empty : d.session.registry = {}) : (d.step move).session.registry = {} ∨
    ∃ c j registrations, move = .act (.handler c j) ∧
      d.session.handlers.get? (c, j) = some (.registering registrations) := by
  -- most moves leave the registry as it is, whether they can be made or not
  have touched : ∀ {result}, (∀ h s, result = some (h, s) → s.registry = {}) →
      (d.touch result).session.registry = {} := by
    intro result kept
    cases result with
    | none => exact empty
    | some result => exact kept _ _ rfl
  cases move with
  | act actor =>
    cases actor with
    | task t =>
      refine Or.inl (touched fun h s step => ?_)
      obtain ⟨task, s₁, task', here, taken, rfl⟩ := Session.stepTask_cases covered step
      exact taken.registry empty
    | reader c =>
      refine Or.inl (touched fun h s step => ?_)
      simp only [Session.step] at step
      split at step
      · exact (Session.registry_stepReader step).trans empty
      · simp at step
    | readOn c =>
      refine Or.inl (touched fun h s step => ?_)
      simp only [Session.step] at step
      split at step
      · obtain ⟨connection, read, same⟩ := Option.map_eq_some_iff.mp step
        obtain ⟨-, rfl⟩ := Prod.mk.inj same
        exact empty
      · simp at step
    | job c j =>
      refine Or.inl (touched fun h s step => ?_)
      obtain ⟨connection, stepped, same⟩ := Option.map_eq_some_iff.mp step
      obtain ⟨-, rfl⟩ := Prod.mk.inj same
      exact empty
    | handler c j =>
      cases stepped : d.session.step d.now d.host (.handler c j) with
      | none => exact Or.inl (by simpa [step, stepped, touch] using empty)
      | some result =>
        rcases Session.registry_stepHandler stepped empty with kept | ⟨registrations, place⟩
        · exact Or.inl (by simpa [step, stepped, touch] using kept)
        · exact Or.inr ⟨c, j, registrations, rfl, place⟩
  | finishFiles c j =>
    refine Or.inl (touched fun h s step => ?_)
    obtain ⟨s₁, finished, same⟩ := Option.map_eq_some_iff.mp step
    obtain ⟨-, rfl⟩ := Prod.mk.inj same
    exact (Session.registry_finishFiles finished).trans empty
  | fire t =>
    refine Or.inl ?_
    simp only [step, Session.cancelRequest]
    split <;> exact empty
  | _ => exact Or.inl empty

/-- A start that is under way has taken down what its teardown has come past. -/
theorem shed_after (moves : List Move) : ∀ (t : Nat) (p : StartPhase),
    ((machine setup).after moves).session.tasks[t]? = some (.start p) → p.UnderWay →
    ((machine setup).after moves).session.Shed p := by
  refine run_changes (fun _ d => ∀ (t : Nat) (p : StartPhase),
    d.session.tasks[t]? = some (.start p) → p.UnderWay → d.session.Shed p) ?_ ?_ moves
  · simp [machine, Session.ofConfig]
  · rintro moves move d d' rfl rfl change ih t p here' on
    rcases change.underWay_cases (covered_after moves) (guarded_after moves) here' on with
      ⟨here, apart⟩ | ⟨q, h, s₁, here, step, result⟩
    · exact (ih t p here on).of_sheds apart.toSheds
    · rw [result]
      refine Session.Shed.of_sheds (s := s₁) ?_ (.of_eq rfl rfl rfl rfl)
      by_cases under : q.UnderWay
      · exact step.shed under (ih t q here under)
      · obtain ⟨rfl, -⟩ := step.begins under on
        trivial

end Scene

end LanguageClient
