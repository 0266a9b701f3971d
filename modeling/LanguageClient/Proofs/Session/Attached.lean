import LanguageClient.Proofs.Session.Replay
/-!
# The connection of a running session

A start puts its connection in use before it makes the handshake (`wired_after`), and as long as the
session runs, and its connection can be written on, nobody takes the connection out of use
(`RanOn.attached`): whoever stops the session moves its state first, and a start that fails once the
session runs does so because it could not write.

So nothing that the bookkeeping gives out is lost on the way to a server: a running session tells all of
it (`RanOn.telling`).
-/

namespace LanguageClient

theorem Task.TearsDown.cases {task : Task} (tears : task.TearsDown) :
    task.Halting ∨ ∃ e down, task = .start (.failing e down) := by
  unfold Task.TearsDown at tears
  split at tears
  · exact Or.inr ⟨_, _, rfl⟩
  · exact Or.inl trivial
  · exact Or.inl trivial
  · exact Or.inl trivial
  · exact tears.elim

namespace Session

variable {now : Nat} {h h' : Host} {s s' : Session} {t i c : Nat} {task task' : Task}

/-! ## Before the session runs -/

/-- A start that makes the handshake has its connection in use, unless the session is being stopped. -/
def Wired (s : Session) : Prop :=
  ∀ (t : Nat) (p : StartPhase) (c : Nat), s.tasks[t]? = some (.start p) → p.Shakes c →
    s.current = some c ∨ s.state = .stopping ∨ s.state = .stopped

theorem Moved.wired (moved : Moved now h s h' s') (guarded : s.Guarded) (halted : s.Halted)
    (wired : s.Wired) : s'.Wired := by
  cases moved with
  | served _ _ serves =>
    obtain ⟨c, connection, registry, handlers, passing, diagnostics, -, -, rfl⟩ := serves
    exact wired
  | task t task _ s₁ task' here step =>
    intro i p c here' shakes
    change s₁.current = some c ∨ s₁.state = .stopping ∨ s₁.state = .stopped
    have before : ∀ {q}, s.tasks[i]? = some (.start q) → q.Shakes c →
        s₁.current = some c ∨ s₁.state = .stopping ∨ s₁.state = .stopped := by
      intro q there shook
      -- the start is the only one under way, so nobody else fails or publishes a connection
      have other : ∀ {q'}, task = .start q' → q'.UnderWay → ¬ q'.Shakes c → False := by
        rintro q' rfl underWay idle
        obtain rfl := guarded.unique there shook.underWay here underWay
        obtain rfl := Task.start.inj (Option.some.inj (here.symm.trans there))
        exact idle shook
      rcases wired i q c there shook with used | past
      · rcases step.current_cases with ⟨tears, -⟩ | same | ⟨c', place, -⟩
        · rcases tears.cases with halting | ⟨e, down, place⟩
          · exact Or.inr (step.stays_halted (halted t task here halting))
          · exact (other place trivial id).elim
        · exact Or.inl (same.trans used)
        · exact (other place trivial id).elim
      · exact Or.inr (step.stays_halted past)
    rcases step.at here here' with ⟨rfl, rfl⟩ | ⟨-, same | ⟨-, born⟩⟩
    · cases step with
      | start q _ _ _ step =>
        rcases step.shakes shakes with shook | ⟨-, used⟩
        · exact before here shook
        · exact Or.inl used
    · exact before same shakes
    · cases born

/-! ## While the session runs -/

/-- A connection is in use, and no start is about to take it down. -/
structure Attached (s : Session) (c : Nat) : Prop where
  used : s.current = some c
  succeeding : ∀ (t : Nat) (e : ClientError) (down : Teardown),
    s.tasks[t]? ≠ some (.start (.failing e down))

/-- A start that has run on a connection fails only when it cannot write there what it has to tell. -/
theorem StartStep.of_failing {p : StartPhase} {e : ClientError} {down : Teardown}
    (step : StartStep now h s t p h' s' (.failing e down)) (past : p.Past c) :
    (∃ e down, p = .failing e down) ∨
      (s.connection c).canWrite = false ∧ (Task.start p).HoldsSync := by
  generalize place : StartPhase.failing e down = p' at step
  cases step with
  | tore e' down' => exact Or.inl ⟨e', down', rfl⟩
  | unwritten c' _ _ place' cannot =>
    rcases place' with ⟨kind, rfl⟩ | ⟨params, rest, rfl⟩ <;> obtain rfl : c' = c := past <;>
      exact Or.inr ⟨cannot, trivial⟩
  | listed _ _ _ next | announced _ _ _ _ _ _ next => cases next <;> simp at place
  | retried _ _ _ _ _ _ => simp at place
  | gaveUp _ _ _ _ place' =>
    rcases place' with ⟨reply, rfl⟩ | ⟨deadline, reply, rfl⟩ <;> exact past.elim
  | connected | overtaken | concluded | answered => exact past.elim
  | _ => simp at place

theorem Moved.attached (moved : Moved now h s h' s') (on : s.On c) (halted : s.Halted)
    (running : s.state = .running) (can : (s.connection c).canWrite = true) (attached : s.Attached c) :
    s'.Attached c := by
  cases moved with
  | served _ _ serves =>
    obtain ⟨c', connection, registry, handlers, passing, diagnostics, -, -, rfl⟩ := serves
    exact ⟨attached.used, attached.succeeding⟩
  | task t task _ s₁ task' here step =>
    constructor
    · rcases step.current_cases with ⟨tears, -⟩ | same | ⟨c', rfl, -⟩
      · rcases tears.cases with halting | ⟨e, down, rfl⟩
        · simpa [running] using halted t task here halting
        · exact absurd here (attached.succeeding t e down)
      · exact same.trans attached.used
      · exact (on.past t _ here).elim
    · intro i e down here'
      rcases step.at here here' with ⟨rfl, rfl⟩ | ⟨-, same | ⟨-, born⟩⟩
      · cases step with
        | start p _ _ _ step =>
          rcases step.of_failing (on.past i p here) with ⟨e, down, rfl⟩ | ⟨cannot, -⟩
          · exact attached.succeeding i e down here
          · simp [can] at cannot
      · exact attached.succeeding i e down same
      · cases born

/-- A session tells all that the bookkeeping gives out on a connection: the connection can be written on,
    and the session runs, or a task has had the lock on the documents since it did. -/
def Speaks (s : Session) (c : Nat) : Prop :=
  (s.connection c).canWrite = true ∧ (s.state = .running ∨ ¬ s.Unheld)

end Session

namespace Scene

variable {setup : Setup} {moves : List Move} {d d' : Scene} {t c : Nat} {kind : SyncKind}

theorem Change.wired (change : Change d d') (guarded : d.session.Guarded)
    (halted : d.session.Halted) (wired : d.session.Wired) : d'.session.Wired := by
  rcases change.cases with ⟨-, moved⟩ | ⟨aside, -⟩
  · exact moved.wired guarded halted wired
  · intro t p c here shakes
    rw [aside.rest]
    rcases aside.place t _ here with same | ⟨-, fresh⟩ | ⟨method, params, cancelled, p, -, other⟩
    · exact wired t p c same shakes
    · cases fresh
      exact shakes.elim
    · simp at other

/-- A start that makes the handshake has its connection in use, unless the session is being stopped. -/
theorem wired_after (moves : List Move) : ((machine setup).after moves).session.Wired := by
  refine run_changes (fun _ d => d.session.Wired) ?_ ?_ moves
  · simp [machine, Session.ofConfig, Session.Wired]
  · rintro moves move d d' rfl rfl change wired
    exact change.wired (guarded_after moves) (halted_after moves) wired

theorem Change.attached (change : Change d d') (on : d.session.On c) (halted : d.session.Halted)
    (running : d.session.state = .running) (can : (d.session.connection c).canWrite = true)
    (attached : d.session.Attached c) : d'.session.Attached c := by
  rcases change.cases with ⟨-, moved⟩ | ⟨aside, -⟩
  · exact moved.attached on halted running can attached
  · refine ⟨by rw [aside.rest]; exact attached.used, fun t e down here => ?_⟩
    rcases aside.place t _ here with same | ⟨-, fresh⟩ | ⟨method, params, cancelled, p, -, other⟩
    · exact attached.succeeding t e down same
    · cases fresh
    · simp at other

/-- A session that has begun to run and runs now has run all the time. -/
theorem RanOn.was_running {move : Move} (ran : RanOn setup moves t c kind)
    (running : ((machine setup).after (moves ++ [move])).session.state = .running) :
    ((machine setup).after moves).session.state = .running := by
  by_contra other
  obtain ⟨i, c', kind', here, -⟩ := (change_after moves move).running other running
  exact (ran.on.past i _ here).elim

/-- A running session uses the connection it has begun to run on, as long as that can be written on. -/
theorem RanOn.attached (ran : RanOn setup moves t c kind)
    (running : ((machine setup).after moves).session.state = .running)
    (can : (((machine setup).after moves).session.connection c).canWrite = true) :
    ((machine setup).after moves).session.Attached c := by
  refine ran_induction (fun _ d => d.session.state = .running →
    (d.session.connection c).canWrite = true → d.session.Attached c) ?_ ?_ ran running can
  · intro moves move quiet step _ _
    constructor
    · rcases wired_after moves t _ c step.place rfl with used | past
      · rw [step.result]
        exact used
      · simp [step.starting] at past
    · intro i e down failing
      obtain rfl := (guarded_after (moves ++ [move])).unique failing trivial step.here trivial
      rw [step.here] at failing
      simp at failing
  · rintro moves move d d' rfl rfl ran change attached running can
    have was := ran.was_running running
    have could := change.canWrite c can
    exact change.attached ran.on (halted_after moves) was could (attached was could)

/-- A running session has begun to run on the connection that it uses. -/
theorem exists_ranOn (running : ((machine setup).after moves).session.state = .running)
    (used : ((machine setup).after moves).session.current = some c)
    (agreed : ((machine setup).after moves).session.sync.kind = kind) :
    ∃ t, RanOn setup moves t c kind := by
  rcases quiet_or_ranOn moves with quiet | ⟨t, c', kind', ran⟩
  · exact absurd running quiet.idle
  · obtain rfl := ran.on.current c used
    obtain rfl := ran.sync_kind.symm.trans agreed
    exact ⟨t, ran⟩

/-- Whoever has the lock after a change had it before, or the session runs. -/
theorem Change.unheld (change : Change d d') (locked : d.session.Locked)
    (unheld : d.session.Unheld) (idle : d'.session.state ≠ .running) : d'.session.Unheld := by
  intro i x here' holds
  cases change.came here' with
  | stayed _ here => exact unheld i x here holds
  | called _ _ fresh => cases fresh <;> exact holds
  | born _ _ born => cases born <;> exact holds
  | fired => exact holds
  | stepped old _ s here step result =>
    rcases step.lock_cases (locked.sound i old here) with ⟨-, before⟩ | ⟨-, -, running, -⟩ | ⟨-, -, given⟩
    · exact unheld i old here (before holds)
    · exact idle (by rw [result]; exact running)
    · exact given holds

/-- **A session tells all that the bookkeeping gives out.**  As long as it does so, its conversation goes
    on with every move. -/
theorem RanOn.telling_of_speaks (ran : RanOn setup moves t c kind) (move : Move)
    (speaks : ((machine setup).after (moves ++ [move])).session.Speaks c) :
    ((machine setup).after moves).session.Speaks c ∧
    ∃ notes, Telling (((machine setup).after moves).Asks move)
        ((machine setup).after moves).session.sync
        ((machine setup).after (moves ++ [move])).session.sync notes ∧
      ((machine setup).after (moves ++ [move])).session.conversation c =
        ((machine setup).after moves).session.conversation c ++ notes := by
  obtain ⟨can, active⟩ := speaks
  have change := @change_after setup moves move
  have locked := @locked_after setup moves
  have could := change.canWrite c can
  -- what speaks after the move has spoken before it
  have spoke : ((machine setup).after moves).session.Speaks c := by
    refine ⟨could, Classical.or_iff_not_imp_right.mpr fun unheld => ?_⟩
    by_contra idle
    have idle' : ((machine setup).after (moves ++ [move])).session.state ≠ .running :=
      fun running => idle (ran.was_running running)
    exact active.resolve_left idle' (change.unheld locked (not_not.mp unheld) idle')
  refine ⟨spoke, ?_⟩
  cases ran.heard move with
  | told notes telling heard => exact ⟨notes, telling, heard⟩
  | dropped uri generation params idle free =>
    exact absurd (fun i x here => locked.free free here) (spoke.2.resolve_left idle)
  | ended cause _ _ _ _ unheld =>
    -- the conversation would have ended for a reason, and there is none
    have running := ran.was_running (active.resolve_right (not_not.mpr unheld))
    rcases cause with unused | ⟨i, task, n, -, -, cannot, -⟩
    · simp [(ran.attached running could).used] at unused
    · simp [could] at cannot

/-- As long as a session runs and its connection can be written on, its conversation goes on with every
    move. -/
theorem RanOn.telling (ran : RanOn setup moves t c kind) (move : Move)
    (running : ((machine setup).after (moves ++ [move])).session.state = .running)
    (can : (((machine setup).after (moves ++ [move])).session.connection c).canWrite = true) :
    ∃ notes, Telling (((machine setup).after moves).Asks move)
        ((machine setup).after moves).session.sync
        ((machine setup).after (moves ++ [move])).session.sync notes ∧
      ((machine setup).after (moves ++ [move])).session.conversation c =
        ((machine setup).after moves).session.conversation c ++ notes :=
  (ran.telling_of_speaks move ⟨can, Or.inl running⟩).2

end Scene

end LanguageClient
