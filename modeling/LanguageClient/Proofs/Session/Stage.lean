import LanguageClient.Proofs.Session.Utterance
/-!
# Before and after a session begins to run

A session begins to run once at most, by a step of a start that has configured the documents (`Ran`).
Before that nobody holds the lock on the documents and the server is told nothing of them (`Quiet`);
from then on all that is told goes to the connection of that start (`On`).

`ran_induction` carries a property through the moves that follow, which is how everything about the
traffic of documents is proved.
-/

namespace LanguageClient

/-! ## Tasks that end a session -/

/-- A stop or a watch that has moved the state of the session on, and has not ended. -/
def Task.Halting : Task → Prop
  | .stop .entering | .stop .ended | .watch _ .waiting | .watch _ .ended => False
  | .stop _ | .watch .. => True
  | _ => False

/-- A start makes the handshake on a connection. -/
def StartPhase.Shakes (c : Nat) : StartPhase → Prop
  | .initializing c' _ _ | .deciding c' _ _ _ | .prompting c' _ _ _ _ | .recording c' _
  | .configuring c' _ => c' = c
  | _ => False

theorem StartPhase.Shakes.underWay {c : Nat} {p : StartPhase} (shakes : p.Shakes c) : p.UnderWay := by
  unfold StartPhase.Shakes at shakes
  split at shakes <;> trivial

/-- After a session has run it stops. -/
theorem SessionState.Next.of_late {state state' : SessionState} (next : Next state state')
    (late : state = .running ∨ state = .stopping ∨ state = .stopped) :
    state' = .stopping ∨ state' = .stopped := by
  cases next <;> simp_all

namespace Session

variable {now : Nat} {h h' : Host} {s s' : Session} {t i c : Nat} {task task' : Task}

/-- A stop or a watch goes on to halt the session only when it has moved the state. -/
theorem TaskStep.halting (step : TaskStep now h s t task h' s' task') (halting : task'.Halting) :
    task.Halting ∨ s'.state = .stopping ∨ s'.state = .stopped := by
  cases step with
  | stop p _ p' step =>
    cases step with
    | late => exact halting.elim
    | begun => exact Or.inr (Or.inl rfl)
    | _ => exact Or.inl trivial
  | watch c p _ _ p' step =>
    cases step with
    | noticed => exact Or.inr (Or.inr rfl)
    | idle => exact halting.elim
    | _ => exact Or.inl trivial
  | _ => exact halting.elim

/-- A session that is being stopped does not run again. -/
theorem TaskStep.stays_halted (step : TaskStep now h s t task h' s' task')
    (halted : s.state = .stopping ∨ s.state = .stopped) :
    s'.state = .stopping ∨ s'.state = .stopped := by
  rcases step.state_cases with same | ⟨next, -⟩
  · rwa [same]
  · exact next.of_late (Or.inr halted)

/-- Whoever halts the session has moved its state. -/
def Halted (s : Session) : Prop :=
  ∀ (t : Nat) (task : Task), s.tasks[t]? = some task → task.Halting →
    s.state = .stopping ∨ s.state = .stopped

theorem Moved.halted (moved : Moved now h s h' s') (halted : s.Halted) : s'.Halted := by
  cases moved with
  | served _ _ serves =>
    obtain ⟨c, connection, registry, handlers, passing, diagnostics, -, -, rfl⟩ := serves
    exact halted
  | task t task _ s₁ task' here step =>
    intro i x here' halting
    change s₁.state = .stopping ∨ s₁.state = .stopped
    rcases step.at here here' with ⟨rfl, rfl⟩ | ⟨-, same | ⟨-, born⟩⟩
    · rcases step.halting halting with before | moved
      · exact step.stays_halted (halted i task here before)
      · exact moved
    · exact step.stays_halted (halted i x same halting)
    · cases born <;> exact halting.elim

/-! ## The connection of a start -/

/-- A start makes the handshake on the connection that it has put in use. -/
theorem StartStep.shakes {p p' : StartPhase} (step : StartStep now h s t p h' s' p')
    (shakes : p'.Shakes c) : p.Shakes c ∨ p = .publishing c ∧ s'.current = some c := by
  cases step with
  | published c' _ call begun =>
    obtain rfl : c' = c := shakes
    exact Or.inr ⟨rfl, begun.current⟩
  | connected outcome rest _ next =>
    rcases next with rfl | rfl | ⟨reason, rfl⟩ <;> exact shakes.elim
  | called | recorded => exact Or.inl shakes
  | concluded c' attempt call result _ _ _ ended next
  | answered c' attempt call s₁ call' result _ _ _ unanswered step ended next =>
    cases next <;> first
      | exact Or.inl shakes
      | exact shakes.elim
  | retried c' attempt _ _ call place begun =>
    rcases place with ⟨failure, rfl⟩ | ⟨failure, deadline, rfl⟩ <;> exact Or.inl shakes
  | listed c' _ _ next | announced c' params rest _ _ can next => cases next <;> exact shakes.elim
  | _ => exact shakes.elim

/-- While a start makes the handshake, no connection but its own is in use. -/
def Settled (s : Session) : Prop :=
  ∀ (t : Nat) (p : StartPhase) (c c' : Nat), s.tasks[t]? = some (.start p) → p.Shakes c →
    s.current = some c' → c' = c

theorem Moved.settled (moved : Moved now h s h' s') (guarded : s.Guarded) (settled : s.Settled) :
    s'.Settled := by
  cases moved with
  | served _ _ serves =>
    obtain ⟨c, connection, registry, handlers, passing, diagnostics, -, -, rfl⟩ := serves
    exact settled
  | task t task _ s₁ task' here step =>
    intro i p c c' here' shakes current
    change s₁.current = some c' at current
    -- only a start that publishes its connection puts one in use, and it is the only one under way
    have before : ∀ {q}, s.tasks[i]? = some (.start q) → q.Shakes c → c' = c := by
      intro q there shakes
      rcases step.current_cases with ⟨-, none⟩ | same | ⟨c'', rfl, -⟩
      · simp [none] at current
      · exact settled i q c c' there shakes (same ▸ current)
      · obtain rfl := guarded.unique there shakes.underWay here trivial
        obtain rfl : .publishing c'' = q := by simpa [here] using there
        exact shakes.elim
    rcases step.at here here' with ⟨rfl, rfl⟩ | ⟨-, same | ⟨-, born⟩⟩
    · cases step with
      | start q _ _ _ step =>
        rcases step.shakes shakes with shook | ⟨-, used⟩
        · exact before here shook
        · simpa [used] using current.symm
    · exact before same shakes
    · cases born

end Session

namespace Scene

variable {setup : Setup} {moves : List Move} {d d' : Scene}

theorem Change.halted (change : Change d d') (halted : d.session.Halted) : d'.session.Halted := by
  rcases change.cases with ⟨-, moved⟩ | ⟨aside, -⟩
  · exact moved.halted halted
  · intro t task here halting
    rw [aside.rest]
    rcases aside.place t task here with same | ⟨-, fresh⟩ | ⟨method, params, cancelled, p, -, rfl⟩
    · exact halted t task same halting
    · cases fresh <;> exact halting.elim
    · exact halting.elim

theorem halted_after (moves : List Move) : ((machine setup).after moves).session.Halted := by
  refine run_changes (fun _ d => d.session.Halted) ?_ ?_ moves
  · simp [machine, Session.ofConfig, Session.Halted]
  · exact fun _ _ _ _ _ _ change h => change.halted h

theorem Change.settled (change : Change d d') (guarded : d.session.Guarded)
    (settled : d.session.Settled) : d'.session.Settled := by
  rcases change.cases with ⟨-, moved⟩ | ⟨aside, -⟩
  · exact moved.settled guarded settled
  · intro t p c c' here shakes current
    rw [aside.rest] at current
    rcases aside.place t _ here with same | ⟨-, fresh⟩ | ⟨method, params, cancelled, p, -, other⟩
    · exact settled t p c c' same shakes current
    · cases fresh
      exact shakes.elim
    · simp at other

/-- While a start makes the handshake, no connection but its own is in use. -/
theorem settled_after (moves : List Move) : ((machine setup).after moves).session.Settled := by
  refine run_changes (fun _ d => d.session.Settled) ?_ ?_ moves
  · simp [machine, Session.ofConfig, Session.Settled]
  · intro moves move d d' before after change h
    have guarded := @guarded_after setup moves
    rw [before] at guarded
    exact change.settled guarded h

end Scene

namespace Session

variable {now : Nat} {h h' : Host} {s s' : Session} {t i c : Nat} {task task' : Task}

/-! ## Before -/

/-- The session has not run: nobody holds the lock on the documents, and the server was told nothing of
    them. -/
structure Quiet (s : Session) : Prop where
  idle : s.state ≠ .running
  free : s.syncOwner = none
  closed : ∀ uri, s.sync.isAnnounced uri = false
  silent : ∀ c, s.told c = []

/-- A start that has configured the documents makes the session running. -/
structure Ran (s s' : Session) (t c : Nat) (kind : SyncKind) : Prop where
  place : s.tasks[t]? = some (.start (.configuring c kind))
  free : s.syncOwner = none
  starting : s.state = .starting
  result : s' = ({ s with sync := s.sync.configure kind, state := .running }.lockSync t).setTask t
    (.start (.greeting c kind))

theorem Ran.here {kind : SyncKind} (ran : Ran s s' t c kind) :
    s'.tasks[t]? = some (.start (.greeting c kind)) := by
  have inside : t < s.tasks.length := (List.getElem?_eq_some_iff.mp ran.place).1
  rw [ran.result]
  simp [setTask, lockSync, inside]

theorem Ran.told {kind : SyncKind} (ran : Ran s s' t c kind) (c' : Nat) : s'.told c' = s.told c' := by
  rw [ran.result]
  rfl

theorem Ran.sync {kind : SyncKind} (ran : Ran s s' t c kind) : s'.sync = s.sync.configure kind := by
  rw [ran.result]
  rfl

theorem Ran.syncOwner {kind : SyncKind} (ran : Ran s s' t c kind) : s'.syncOwner = some t := by
  rw [ran.result]
  rfl

theorem StartStep.of_ran {p : StartPhase} {kind : SyncKind} {c' : Nat} {kind' : SyncKind}
    (step : StartStep now h s t p h' s' (.greeting c kind)) (place : p = .configuring c' kind') :
    s.state = .starting ∧ h' = h ∧ p = .configuring c kind ∧
      s' = { s with sync := s.sync.configure kind, state := .running }.lockSync t := by
  subst place
  cases step with
  | ran _ _ free starting => exact ⟨starting, rfl, rfl, rfl⟩

/-- Without the lock nothing is told of documents. -/
theorem TaskStep.told_of_idle (step : TaskStep now h s t task h' s' task') (idle : ¬ task.HoldsSync)
    (c : Nat) : s'.told c = s.told c := by
  refine step.talk.told_eq fun n speech => Or.inl ?_
  cases about : n.kind? with
  | none => rfl
  | some kind => exact absurd (Task.holds_of_speech speech about).1 idle

/-- While the server has nothing open, what is done without the lock opens nothing. -/
theorem SyncUse.closed (use : SyncUse s task s') (covered : s.sync.Covered) (idle : ¬ task.HoldsSync)
    (closed : ∀ uri, s.sync.isAnnounced uri = false) (uri : String) :
    s'.sync.isAnnounced uri = false := by
  cases use with
  | same sync => rw [sync]; exact closed uri
  | held op holds => exact absurd holds idle
  | configured c kind free place sync => rw [sync]; exact closed uri
  | reset free sync => rw [sync]; rfl
  | taken uri' generation free sync =>
    have effect := DocumentSync.step_transition covered (.takeStaged uri' generation)
    rw [sync]
    exact (effect.isAnnounced_of_released uri).trans (closed uri)

theorem Moved.quiet (moved : Moved now h s h' s') (covered : s.sync.Covered) (locked : s.Locked)
    (quiet : s.Quiet) : s'.Quiet ∨ h' = h ∧ ∃ t c kind, Ran s s' t c kind := by
  cases moved with
  | served _ _ serves =>
    have silent := fun c => (serves.told c).trans (quiet.silent c)
    obtain ⟨c, connection, registry, handlers, passing, diagnostics, -, -, rfl⟩ := serves
    exact Or.inl ⟨quiet.idle, quiet.free, quiet.closed, silent⟩
  | task t task _ s₁ task' here step =>
    have idle := locked.free quiet.free here
    rcases step.lock_cases (locked.sound t task here) with
      ⟨kept, before⟩ | ⟨-, taken, running, -⟩ | ⟨holds, -⟩
    · refine Or.inl ⟨?_, kept.trans quiet.free, step.sync_use.closed covered idle quiet.closed,
        fun c => (step.told_of_idle idle c).trans (quiet.silent c)⟩
      intro running
      rcases step.state_cases with same | ⟨-, ran, -⟩
      · exact quiet.idle (same ▸ running)
      · obtain ⟨c, kind, rfl, rfl⟩ := ran running
        exact idle (before trivial)
    · refine Or.inr ?_
      rcases step.state_cases with same | ⟨-, ran, -⟩
      · exact absurd (same ▸ running) quiet.idle
      · obtain ⟨c, kind, rfl, rfl⟩ := ran running
        cases step with
        | start _ _ _ _ step =>
          obtain ⟨starting, rfl, -, rfl⟩ := step.of_ran rfl
          exact ⟨rfl, t, c, kind, here, quiet.free, starting, rfl⟩
    · exact absurd holds idle

/-! ## After -/

/-- The session has begun to run, and all that it tells of documents goes to one connection. -/
structure On (s : Session) (c : Nat) : Prop where
  late : s.state = .running ∨ s.state = .stopping ∨ s.state = .stopped
  inside : c < s.connections.length
  current : ∀ c', s.current = some c' → c' = c
  past : ∀ (t : Nat) (p : StartPhase), s.tasks[t]? = some (.start p) → p.Past c
  held : ∀ (t : Nat) (task : Task) (c' : Nat), s.tasks[t]? = some task → task.HoldsSync →
    task.connection? = some c' → c' = c
  detached : ∀ (t : Nat) (task : Task), s.tasks[t]? = some task → task.Detached → s.current = none
  regards : ∀ (t : Nat) (e : DocumentEvent) (p : EventPhase), s.tasks[t]? = some (.event e p) →
    p.Regards → s.sync.isAnnounced e.uri = true
  about : ∀ (t : Nat) (task : Task), s.tasks[t]? = some task →
    ∀ n ∈ task.owed, ∃ kind, n.kind? = some kind
  silent : ∀ c', c' ≠ c → s.told c' = []

/-- A start does not lead away from the connection on which the session runs. -/
theorem StartStep.past {p p' : StartPhase} (step : StartStep now h s t p h' s' p') (past : p.Past c)
    (late : s.state ≠ .initial ∧ s.state ≠ .startFailed) : p'.Past c := by
  cases step with
  | begun free ready => exact absurd ready (by simp [late])
  | retried c' attempt _ _ call place =>
    rcases place with ⟨failure, rfl⟩ | ⟨failure, deadline, rfl⟩ <;> exact past.elim
  | greeted => exact past
  | listed c' _ _ next | announced c' params rest _ _ can next =>
    cases next with
    | finished => trivial
    | next => exact past
  | passed | refused | gaveUp | greetedOnly | unwritten | tore | failed | failedQuietly | failedLate
  | reported => trivial
  | _ => exact past.elim

theorem TeardownStep.past_detaching {p p' : Teardown} (step : TeardownStep s p s' p') :
    p ≠ .detaching ∨ s'.current = none := by
  cases step with
  | unused none => exact Or.inr none
  | detached => exact Or.inr rfl
  | _ => exact Or.inl (by simp)

/-- Whoever takes down what the session held has taken its connection out of use. -/
theorem TaskStep.detached (step : TaskStep now h s t task h' s' task') (detached : task'.Detached) :
    task.Detached ∨ s'.current = none := by
  cases step with
  | start p _ _ p' step =>
    cases step with
    | tore e t' _ t'' step => exact step.past_detaching
    -- a start that fails has not begun to take down
    | connected outcome rest _ next =>
      rcases next with rfl | rfl | ⟨reason, rfl⟩
      · exact detached.elim
      · exact detached.elim
      · exact absurd rfl detached
    | concluded _ _ _ _ _ _ _ _ next | answered _ _ _ _ _ _ _ _ _ _ _ _ next =>
      cases next <;> first
        | exact detached.elim
        | exact absurd rfl detached
    | listed _ _ _ next | announced _ _ _ _ _ _ next => cases next <;> exact detached.elim
    | gaveUp | overtaken | unwritten => exact absurd rfl detached
    | _ => exact detached.elim
  | stop p _ p' step =>
    cases step with
    | late | begun => exact detached.elim
    | detached => exact Or.inr rfl
    | _ => exact Or.inl trivial
  | watch c p _ _ p' step =>
    cases step with
    | tore t' _ t'' step => exact step.past_detaching
    | noticed => exact absurd rfl detached
    | _ => exact detached.elim
  | _ => exact detached.elim

/-- An event that concerns an open document goes on to do so. -/
theorem EventStep.regards {e : DocumentEvent} {p p' : EventPhase}
    (step : EventStep now h s t e p s' p') (covered : s.sync.Covered) (regards' : p'.Regards)
    (regards : p.Regards → s.sync.isAnnounced e.uri = true) : s'.sync.isAnnounced e.uri = true := by
  cases step with
  | regarded _ c current announced => exact announced
  | flushed _ c _ params sync place told =>
    have effect := DocumentSync.step_transition covered (.flush e.uri)
    rw [told] at effect
    refine (effect.isAnnounced_of_released e.uri).trans ?_
    rcases place with ⟨-, -, announced⟩ | rfl | ⟨language, rfl⟩
    · exact announced
    · exact regards trivial
    · exact regards trivial
  | asked _ c _ _ place =>
    rcases place with ⟨rfl, -⟩ | ⟨rfl, -⟩ <;> exact regards trivial
  | ahead _ c params _ _ can next =>
    rcases next with ⟨uri, reason, -, rfl, rfl⟩ | ⟨uri, text, -, rfl, rfl⟩ | ⟨rfl, rfl⟩
    · exact regards'.elim
    · exact regards trivial
    · exact regards'.elim
  | _ => exact regards'.elim

/-- What a task owes is about documents. -/
theorem TaskStep.about (step : TaskStep now h s t task h' s' task') (n : Notification)
    (owed : n ∈ task'.owed) : ∃ kind, n.kind? = some kind := by
  -- in all places but one the debt is a notice about a document
  have explicit : (∀ e c, task' ≠ .event e (.writing c n)) → ∃ kind, n.kind? = some kind := by
    intro other
    unfold Task.owed at owed
    split at owed
    · exact ⟨.didOpen, by rw [List.mem_singleton.mp owed]; rfl⟩
    · exact ⟨.didChange, by rw [List.mem_singleton.mp owed]; rfl⟩
    · exact ⟨.didChange, by rw [List.mem_singleton.mp owed]; rfl⟩
    · exact ⟨.didChange, by rw [List.mem_singleton.mp owed]; rfl⟩
    · exact ⟨.didChange, by rw [List.mem_singleton.mp owed]; rfl⟩
    · rw [List.mem_singleton.mp owed] at other
      exact absurd rfl (other _ _)
    · simp at owed
  by_cases place : ∃ e c, task' = .event e (.writing c n)
  · obtain ⟨e, c, rfl⟩ := place
    cases step with
    | event _ p _ _ step =>
      generalize place : EventPhase.writing c n = p' at step
      cases step with
      | opened | sent | closed | warned | saved =>
        obtain ⟨rfl, rfl⟩ := by simpa using place
        exact ⟨_, rfl⟩
      | ahead _ c' params _ _ can next =>
        rcases next with ⟨uri, reason, -, rfl, -⟩ | ⟨uri, text, -, rfl, -⟩ | ⟨rfl, -⟩
        · obtain ⟨rfl, rfl⟩ := by simpa using place
          exact ⟨_, rfl⟩
        · simp at place
        · simp at place
      | asked _ c' _ _ place' =>
        rcases place' with ⟨-, rfl⟩ | ⟨-, language, rfl⟩ <;> simp at place
      | _ => simp at place
  · exact explicit fun e c same => place ⟨e, c, same⟩

theorem Regards.holds {e : DocumentEvent} {p : EventPhase} (regards : p.Regards) :
    (Task.event e p).HoldsSync := by
  unfold EventPhase.Regards at regards
  split at regards <;> trivial

theorem On.late_ne (on : s.On c) : s.state ≠ .initial ∧ s.state ≠ .startFailed := by
  rcases on.late with late | late | late <;> simp [late]

/-- What a task has to know to tell something. -/
theorem On.speaker (on : s.On c) (here : s.tasks[t]? = some task) : Speaker s c task where
  inside := on.inside
  on := fun c' => on.held t task c' here
  past := fun p place => on.past t p (place ▸ here)
  late := on.late_ne
  regards := fun e p place => on.regards t e p (place ▸ here)
  about := on.about t task here

/-- When the session has run, a connection that is out of use is not put in use again. -/
theorem On.unused (on : s.On c) (here : s.tasks[t]? = some task)
    (step : TaskStep now h s t task h' s' task') (unused : s.current = none) : s'.current = none := by
  rcases step.current_cases with ⟨-, gone⟩ | same | ⟨c', rfl, -⟩
  · exact gone
  · rw [same, unused]
  · exact (on.past t _ here).elim

theorem On.stepped (on : s.On c) (covered : s.sync.Covered) (locked : s.Locked)
    (here : s.tasks[t]? = some task) (step : TaskStep now h s t task h' s' task') :
    (s'.setTask t task').On c where
  late := by
    rcases step.state_cases with same | ⟨next, -⟩
    · exact same ▸ on.late
    · exact Or.inr (next.of_late on.late)
  inside := Nat.lt_of_lt_of_le on.inside step.talk.length_le
  current := by
    intro c' current
    rcases step.current_cases with ⟨-, none⟩ | same | ⟨c'', rfl, -⟩
    · simp [setTask, none] at current
    · exact on.current c' (same ▸ current)
    · exact (on.past t _ here).elim
  past := by
    intro i p here'
    rcases step.at here here' with ⟨rfl, rfl⟩ | ⟨-, same | ⟨-, born⟩⟩
    · cases step with
      | start q _ _ _ step => exact step.past (on.past i q here) on.late_ne
    · exact on.past i p same
    · cases born
  held := by
    intro i x c' here' holds working
    rcases step.at here here' with ⟨rfl, rfl⟩ | ⟨-, same | ⟨-, born⟩⟩
    · rcases step.lock_cases (locked.sound i task here) with
        ⟨-, before⟩ | ⟨-, -, -, idle | ⟨c'', kind, rfl⟩⟩ | ⟨-, -, given⟩
      · rcases step.connection?_cases working with worked | current | ⟨-, -, rfl⟩
        · exact on.held i task c' here (before holds) worked
        · exact on.current c' current
        · exact (on.past i _ here).elim
      · simp [idle] at working
      · exact (on.past i _ here).elim
      · exact absurd holds given
    · exact on.held i x c' same holds working
    · cases born <;> exact holds.elim
  detached := by
    intro i x here' detached
    change s'.current = none
    rcases step.at here here' with ⟨rfl, rfl⟩ | ⟨-, same | ⟨-, born⟩⟩
    · rcases step.detached detached with before | gone
      · exact on.unused here step (on.detached i task here before)
      · exact gone
    · exact on.unused here step (on.detached i x same detached)
    · cases born <;> exact detached.elim
  regards := by
    intro i e p here' regards
    change s'.sync.isAnnounced e.uri = true
    rcases step.at here here' with ⟨rfl, rfl⟩ | ⟨other, same | ⟨-, born⟩⟩
    · cases step with
      | event _ q _ _ step => exact step.regards covered regards (on.regards i e q here)
    · -- the event holds the lock, so the step leaves the bookkeeping
      have held := locked.holder i _ same (Regards.holds regards)
      rcases step.sync_use.locked with kept | holds | free
      · rw [kept]
        exact on.regards i e p same regards
      · exact absurd (locked.unique same (Regards.holds regards) here holds) other
      · simp [free] at held
    · cases born
  about := by
    intro i x here'
    rcases step.at here here' with ⟨rfl, rfl⟩ | ⟨-, same | ⟨-, born⟩⟩
    · exact step.about
    · exact on.about i x same
    · cases born <;> simp [Task.owed]
  silent := by
    intro c' other
    refine Eq.trans (step.talk.told_eq fun n speech => Or.inl ?_) (on.silent c' other)
    cases about : n.kind? with
    | none => rfl
    | some kind =>
      obtain ⟨holds, working, -⟩ := Task.holds_of_speech speech about
      exact absurd (on.held t task c' here holds working) other

theorem On.moved (on : s.On c) (covered : s.sync.Covered) (locked : s.Locked)
    (moved : Moved now h s h' s') : s'.On c := by
  cases moved with
  | task t task _ s₁ task' here step => exact on.stepped covered locked here step
  | served _ _ serves =>
    have silent := fun c' other => (serves.told c').trans (on.silent c' other)
    obtain ⟨c', connection, registry, handlers, passing, diagnostics, -, -, rfl⟩ := serves
    exact ⟨on.late, by simpa [setConnection] using on.inside, on.current, on.past, on.held,
      on.detached, on.regards, on.about, silent⟩

/-- When a session begins to run, everything is told on the connection of its start from then on. -/
theorem Ran.on {kind : SyncKind} (ran : Ran s s' t c kind) (quiet : s.Quiet) (locked : s.Locked)
    (guarded : s.Guarded) (halted : s.Halted) (settled : s.Settled) (grounded : s.Grounded) :
    s'.On c := by
  have inside : t < s.tasks.length := (List.getElem?_eq_some_iff.mp ran.place).1
  -- whoever is there was there, or is the start
  have cases : ∀ {i x}, s'.tasks[i]? = some x → i = t ∧ x = .start (.greeting c kind) ∨
      i ≠ t ∧ s.tasks[i]? = some x := by
    intro i x here'
    rw [ran.result] at here'
    by_cases same : i = t
    · subst same
      exact Or.inl ⟨rfl, by simpa [setTask, lockSync, inside] using here'.symm⟩
    · exact Or.inr ⟨same, by simpa [setTask, lockSync, List.getElem?_set_ne (Ne.symm same)] using here'⟩
  have alone : ∀ {i p}, i ≠ t → s.tasks[i]? = some (.start p) → ¬ p.UnderWay :=
    fun other there on => other (guarded.unique there on ran.place trivial)
  have current : s'.current = s.current := by rw [ran.result]; rfl
  refine ⟨?_, ?_, ?_, ?_, ?_, ?_, ?_, ?_, ?_⟩
  · rw [ran.result]
    exact Or.inl rfl
  · rw [ran.result]
    exact grounded.worked t _ c ran.place rfl
  · intro c' used
    exact settled t _ c c' ran.place rfl (current ▸ used)
  · intro i p here'
    rcases cases here' with ⟨-, same⟩ | ⟨other, there⟩
    · obtain rfl := Task.start.inj same
      exact rfl
    · have idle := alone other there
      cases p <;> first
        | trivial
        | exact absurd trivial idle
  · intro i x c' here' holds working
    rcases cases here' with ⟨-, rfl⟩ | ⟨-, there⟩
    · exact (Option.some.inj working).symm
    · exact absurd holds (locked.free ran.free there)
  · intro i x here' detached
    rcases cases here' with ⟨-, rfl⟩ | ⟨other, there⟩
    · exact detached.elim
    · exfalso
      cases x with
      | start p =>
        cases p with
        | failing e t' => exact alone other there trivial
        | _ => exact detached.elim
      | stop p =>
        have halting : (Task.stop p).Halting := by cases p <;> trivial
        simpa [ran.starting] using halted i _ there halting
      | watch c' p =>
        have halting : (Task.watch c' p).Halting := by cases p <;> trivial
        simpa [ran.starting] using halted i _ there halting
      | _ => exact detached.elim
  · intro i e p here' regards
    rcases cases here' with ⟨-, same⟩ | ⟨-, there⟩
    · simp at same
    · exact absurd (Regards.holds regards) (locked.free ran.free there)
  · intro i x here' n owed
    rcases cases here' with ⟨-, rfl⟩ | ⟨-, there⟩
    · simp [Task.owed] at owed
    · simp [Task.owed_of_not_holds (locked.free ran.free there)] at owed
  · exact fun c' _ => (ran.told c').trans (quiet.silent c')

end Session

namespace Scene

variable {setup : Setup} {moves : List Move} {d d' : Scene} {t c : Nat} {kind : SyncKind}

/-! ## Along a run -/

theorem Change.quiet (change : Change d d') (covered : d.session.sync.Covered)
    (locked : d.session.Locked) (quiet : d.session.Quiet) :
    d'.session.Quiet ∨ d'.host = d.host ∧ ∃ t c kind, Session.Ran d.session d'.session t c kind := by
  rcases change.cases with ⟨-, moved⟩ | ⟨aside, -⟩
  · exact moved.quiet covered locked quiet
  · rw [aside.rest]
    exact Or.inl ⟨quiet.idle, quiet.free, quiet.closed, quiet.silent⟩

theorem Change.on (change : Change d d') (covered : d.session.sync.Covered)
    (locked : d.session.Locked) (on : d.session.On c) : d'.session.On c := by
  rcases change.cases with ⟨-, moved⟩ | ⟨aside, -⟩
  · exact on.moved covered locked moved
  · -- tasks that are new, and requests, have nothing to do with documents
    have place : ∀ {t : Nat} {x : Task}, d'.session.tasks[t]? = some x → d.session.tasks[t]? = some x ∨
        Fresh x ∨ ∃ method params cancelled p, x = .request method params cancelled p := by
      intro t x here
      rcases aside.place t x here with same | ⟨-, fresh⟩ | ⟨method, params, cancelled, p, -, rfl⟩
      · exact Or.inl same
      · exact Or.inr (Or.inl fresh)
      · exact Or.inr (Or.inr ⟨_, _, _, _, rfl⟩)
    rw [aside.rest]
    refine ⟨on.late, on.inside, on.current, fun t p here => ?_, fun t x c' here holds working => ?_,
      fun t x here detached => ?_, fun t e p here regards => ?_, fun t x here n owed => ?_, on.silent⟩
    · rcases place here with same | fresh | ⟨method, params, cancelled, p, other⟩
      · exact on.past t p same
      · cases fresh
        trivial
      · simp at other
    · rcases place here with same | fresh | ⟨method, params, cancelled, p, rfl⟩
      · exact on.held t x c' same holds working
      · cases fresh <;> exact holds.elim
      · exact holds.elim
    · rcases place here with same | fresh | ⟨method, params, cancelled, p, rfl⟩
      · exact on.detached t x same detached
      · cases fresh <;> exact detached.elim
      · exact detached.elim
    · rcases place here with same | fresh | ⟨method, params, cancelled, p, other⟩
      · exact on.regards t e p same regards
      · cases fresh
        exact regards.elim
      · simp at other
    · rcases place here with same | fresh | ⟨method, params, cancelled, p, rfl⟩
      · exact on.about t x same n owed
      · cases fresh <;> simp [Task.owed] at owed
      · simp [Task.owed] at owed

/-- The session has begun to run: once, the start of task `t` made it running on connection `c` with a
    kind of synchronisation. -/
def RanOn (setup : Setup) (moves : List Move) (t c : Nat) (kind : SyncKind) : Prop :=
  ∃ before move later, moves = before ++ move :: later ∧
    ((machine setup).after before).session.Quiet ∧
    Session.Ran ((machine setup).after before).session
      ((machine setup).after (before ++ [move])).session t c kind

theorem RanOn.append (ran : RanOn setup moves t c kind) (more : List Move) :
    RanOn setup (moves ++ more) t c kind := by
  obtain ⟨before, move, later, rfl, quiet, step⟩ := ran
  exact ⟨before, move, later ++ more, by simp, quiet, step⟩

/-- A session is quiet until it has begun to run. -/
theorem quiet_or_ranOn (moves : List Move) : ((machine setup).after moves).session.Quiet ∨
    ∃ t c kind, RanOn setup moves t c kind := by
  refine run_changes (fun moves d => d.session.Quiet ∨ ∃ t c kind, RanOn setup moves t c kind)
    ?_ ?_ moves
  · refine Or.inl ⟨?_, rfl, fun _ => rfl, fun _ => rfl⟩
    simp [machine, Session.ofConfig]
  · rintro moves move d d' rfl rfl change (quiet | ⟨t, c, kind, ran⟩)
    · rcases change.quiet (covered_after moves) (locked_after moves) quiet with
        quiet' | ⟨-, t, c, kind, ran⟩
      · exact Or.inl quiet'
      · exact Or.inr ⟨t, c, kind, moves, move, [], rfl, quiet, ran⟩
    · exact Or.inr ⟨t, c, kind, ran.append [move]⟩

/-- What holds when the session begins to run, and is kept by every change from then on, holds ever
    after. -/
theorem ran_induction (inv : List Move → Scene → Prop)
    (begun : ∀ moves move, ((machine setup).after moves).session.Quiet →
      Session.Ran ((machine setup).after moves).session
        ((machine setup).after (moves ++ [move])).session t c kind →
      inv (moves ++ [move]) ((machine setup).after (moves ++ [move])))
    (change : ∀ moves move d d', (machine setup).after moves = d →
      (machine setup).after (moves ++ [move]) = d' → RanOn setup moves t c kind → Change d d' →
      inv moves d → inv (moves ++ [move]) d')
    (ran : RanOn setup moves t c kind) : inv moves ((machine setup).after moves) := by
  obtain ⟨before, move, later, rfl, quiet, step⟩ := ran
  induction later using List.reverseRecOn with
  | nil => exact begun before move quiet step
  | append_singleton later last ih =>
    have earlier : RanOn setup (before ++ move :: later) t c kind :=
      ⟨before, move, later, rfl, quiet, step⟩
    have same : before ++ move :: (later ++ [last]) = (before ++ move :: later) ++ [last] := by simp
    rw [same]
    exact change _ last _ _ rfl rfl earlier (change_after _ last) ih

/-- Once the session has begun to run, all that it tells of documents goes to one connection. -/
theorem RanOn.on (ran : RanOn setup moves t c kind) : ((machine setup).after moves).session.On c := by
  refine ran_induction (fun _ d => d.session.On c) ?_ ?_ ran
  · exact fun moves move quiet step => step.on quiet (locked_after moves) (guarded_after moves)
      (halted_after moves) (settled_after moves) (grounded_after moves)
  · rintro moves move d d' rfl rfl - change on
    exact change.on (covered_after moves) (locked_after moves) on

end Scene

end LanguageClient
