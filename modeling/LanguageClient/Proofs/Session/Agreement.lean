import LanguageClient.Proofs.Session.Stage
/-!
# The server has open what the bookkeeping says

Once a session has begun to run, what it tells of documents is a conversation on one connection.
`Heard` says how a change goes on with it, and `Change.heard` that there is no other way.  As long as
the conversation goes on, the bookkeeping agrees with what the server makes of it.  When a write fails,
or the session is taken down, the conversation is over, and what was told up to then stays as it is
(`RanOn.agreeing`).  In either case the server could take all that it was told (`taken_after`).
-/

namespace LanguageClient

namespace Session

variable {now : Nat} {h h' : Host} {s s' : Session} {t i c : Nat} {task task' : Task}

/-! ## The conversation along a step -/

/-- While no other task has the lock, what is owed is owed by the task that takes a step. -/
theorem TaskStep.owed_eq (step : TaskStep now h s t task h' s' task')
    (here : s.tasks[t]? = some task) (locked : s.Locked)
    (alone : s.syncOwner = none ∨ s.syncOwner = some t) :
    s.owed = task.owed ∧ (s'.setTask t task').owed = task'.owed := by
  have alone' : s'.syncOwner = none ∨ s'.syncOwner = some t := by
    rcases step.lock_cases (locked.sound t task here) with ⟨kept, -⟩ | ⟨-, taken, -⟩ | ⟨-, given, -⟩
    · rwa [kept]
    · exact Or.inr taken
    · exact Or.inl given
  have locked' : (s'.setTask t task').Locked := (Moved.task t task h' s' task' here step).locked locked
  exact ⟨locked.owed here alone, locked'.owed (step.self here) alone'⟩

/-- Serving the server is no part of the conversation. -/
theorem Serves.conversation (serves : Serves h s h' s') (c : Nat) :
    s'.conversation c = s.conversation c := by
  have owed : s'.owed = s.owed := by
    obtain ⟨c', connection, registry, handlers, passing, diagnostics, -, -, rfl⟩ := serves
    rfl
  rw [Session.conversation, serves.told c, owed, Session.conversation]

/-! ## The end of the conversation -/

/-- Nobody can tell the server anything more on a connection: it cannot be written on, or it is not in
    use and nobody is about to write on it. -/
def Mute (s : Session) (c : Nat) : Prop :=
  (s.connection c).canWrite = false ∨
    s.current = none ∧ ∀ (t : Nat) (task : Task), s.tasks[t]? = some task → task.HoldsSync →
      task.connection? = none

/-- No task has the lock on the documents. -/
def Unheld (s : Session) : Prop :=
  ∀ (t : Nat) (task : Task), s.tasks[t]? = some task → ¬ task.HoldsSync

/-- A server could take all that it was told. -/
structure Taken (ns : List Notification) : Prop where
  state : ∀ uri, serverState uri ns ≠ none
  readable : ∀ n ∈ ns, ∃ kind uri, n.Tells kind uri

theorem Taken.of_agrees {sync : DocumentSync} {ns more : List Notification}
    (agrees : Agrees sync (ns ++ more)) : Taken ns := by
  refine ⟨fun uri => ?_, fun n among => agrees.readable n (by simp [among])⟩
  obtain ⟨state, read, -⟩ := agrees.state uri
  exact @serverState_ne_none_of_append uri ns more (by simp [read])

/-- On a mute connection nothing is told, and it stays mute. -/
theorem Mute.stepped (mute : s.Mute c) (on : s.On c) (locked : s.Locked)
    (here : s.tasks[t]? = some task) (step : TaskStep now h s t task h' s' task') :
    s'.told c = s.told c ∧ (s'.setTask t task').Mute c := by
  -- it is mute because nobody can write, or because it is out of use and nobody who is at work on it
  -- has the lock
  rcases mute with cannot | ⟨unused, idle⟩
  · refine ⟨step.talk.told_eq fun n speech => Or.inr cannot, Or.inl ?_⟩
    change (s'.connection c).canWrite = false
    by_contra can
    simp [step.talk.canWrite c (by simpa using can)] at cannot
  · constructor
    · refine step.talk.told_eq fun n speech => Or.inl ?_
      cases about : n.kind? with
      | none => rfl
      | some kind =>
        -- who tells of documents has the lock and works on the connection
        obtain ⟨holds, working, -⟩ := Task.holds_of_speech speech about
        simp [idle t task here holds] at working
    · refine Or.inr ⟨?_, fun i x here' holds => ?_⟩
      · rcases step.current_cases with ⟨-, none⟩ | same | ⟨c', rfl, -⟩
        · exact none
        · exact same.trans unused
        · exact (on.past t _ here).elim
      rcases step.at here here' with ⟨rfl, rfl⟩ | ⟨-, same | ⟨-, born⟩⟩
      -- the task itself would have to take the connection, and there is none to take
      · by_contra working
        obtain ⟨c', working⟩ := Option.ne_none_iff_exists'.mp working
        rcases step.lock_cases (locked.sound i task here) with
          ⟨-, before⟩ | ⟨-, -, -, none | ⟨c'', kind, rfl⟩⟩ | ⟨-, -, given⟩
        · rcases step.connection?_cases working with worked | current | ⟨-, -, rfl⟩
          · simp [idle i task here (before holds)] at worked
          · simp [unused] at current
          · exact (on.past i _ here).elim
        · simp [none] at working
        · exact (on.past i _ here).elim
        · exact given holds
      · exact idle i x same holds
      · cases born <;> exact holds.elim

/-- When the only task that may have the lock has given it back, nobody has it. -/
theorem TaskStep.idle_of_released (step : TaskStep now h s t task h' s' task')
    (here : s.tasks[t]? = some task) (locked : s.Locked)
    (alone : s.syncOwner = none ∨ s.syncOwner = some t) (released : ¬ task'.HoldsSync) :
    (s'.setTask t task').Unheld := by
  intro i x here' holds
  rcases step.at here here' with ⟨rfl, rfl⟩ | ⟨other, same | ⟨-, born⟩⟩
  · exact released holds
  · have held := locked.holder i x same holds
    rcases alone with free | mine
    · simp [free] at held
    · exact other (Option.some.inj (held.symm.trans mine))
  · cases born <;> exact holds.elim

/-- When nobody has the lock, and the connection is not in use any more, nobody is about to write on
    it. -/
theorem Mute.of_unused (on : s.On c) (here : s.tasks[t]? = some task)
    (step : TaskStep now h s t task h' s' task') (unused : s.current = none)
    (idle : (s'.setTask t task').Unheld) : (s'.setTask t task').Mute c := by
  refine Or.inr ⟨?_, fun i x here' holds => absurd holds (idle i x here')⟩
  rcases step.current_cases with ⟨-, none⟩ | same | ⟨c', rfl, -⟩
  · exact none
  · exact same.trans unused
  · exact (on.past t _ here).elim

/-! ## What a change makes of the conversation -/

/-- A task that was about to write on a connection was turned away, for the connection cannot be written
    on. -/
def Turned (s s' : Session) (c : Nat) : Prop :=
  ∃ (t : Nat) (task : Task) (n : Notification), s.tasks[t]? = some task ∧
    task.speech? = some (c, n) ∧ (s.connection c).canWrite = false ∧ s'.tasks[t]? ≠ some task

/-- How a change goes on with the conversation on a connection, when whoever makes it may make some
    operations on the bookkeeping. -/
inductive Heard (may : SyncOp → Prop) (s s' : Session) (c : Nat) : Prop where
  | told (notes : List Notification) (telling : Telling may s.sync s'.sync notes)
      (heard : s'.conversation c = s.conversation c ++ notes)
  /-- A staged change is dropped, for the session does not run any more. -/
  | dropped (uri : String) (generation : Nat) (params : DidChangeParams) (idle : s.state ≠ .running)
      (free : s.syncOwner = none)
      (taken : s.sync.step (.takeStaged uri generation) = (.released (some params), s'.sync))
      (heard : s'.conversation c = s.conversation c)
  /-- The conversation is over. -/
  | ended (cause : s.current = none ∨ Turned s s' c) (mute : s'.Mute c)
      (sync : s'.sync = s.sync ∨ s'.sync = s.sync.reset) (told : s'.told c = s.told c)
      (owed : s'.owed = []) (idle : s'.Unheld)

theorem Heard.mono {may may' : SyncOp → Prop} (heard : Heard may s s' c)
    (more : ∀ op, may op → may' op) : Heard may' s s' c := by
  cases heard with
  | told notes telling heard => exact .told notes (telling.mono more) heard
  | dropped uri generation params idle free taken heard =>
    exact .dropped uri generation params idle free taken heard
  | ended cause mute sync told owed idle => exact .ended cause mute sync told owed idle

theorem TaskStep.heard (step : TaskStep now h s t task h' s' task') (here : s.tasks[t]? = some task)
    (on : s.On c) (locked : s.Locked) : Heard task.Asks s (s'.setTask t task') c := by
  -- with the lock free or its own, the task alone decides what is told and owed
  by_cases alone : s.syncOwner = none ∨ s.syncOwner = some t
  · obtain ⟨before, after⟩ := step.owed_eq here locked alone
    have conversation : (s'.setTask t task').conversation c = s'.told c ++ task'.owed := by
      rw [Session.conversation, after]
      rfl
    -- who lets go of the lock owes nothing more
    have silent : ¬ task'.HoldsSync → (s'.setTask t task').owed = [] := fun released => by
      rw [after, Task.owed_of_not_holds released]
    cases step.utterance (on.speaker here) with
    | told notes telling heard =>
      exact .told notes telling (by rw [conversation, heard, Session.conversation, before])
    | dropped uri generation params idle free taken told none =>
      refine .dropped uri generation params idle free taken ?_
      rw [conversation, told, none.2, ← none.1, Session.conversation, before]
    | reset detached free sync told released =>
      have unused := on.detached t task here detached
      have idle := step.idle_of_released here locked alone released
      exact .ended (Or.inl unused) (.of_unused on here step unused idle) (Or.inr sync) told
        (silent released) idle
    | cut n speech cannot sync told mine released =>
      refine .ended (Or.inr ⟨t, task, n, here, speech, cannot, ?_⟩)
        (Mute.stepped (Or.inl cannot) on locked here step).2 (Or.inl sync) told (silent released)
        (step.idle_of_released here locked alone released)
      intro same
      rcases step.at here same with ⟨-, rfl⟩ | ⟨other, -⟩
      · exact released mine
      · exact other rfl
    | stranded unused sync told mine released =>
      have idle := step.idle_of_released here locked alone released
      exact .ended (Or.inl unused) (.of_unused on here step unused idle) (Or.inl sync) told
        (silent released) idle
  · -- another task has the lock, so this one has nothing to do with documents
    obtain ⟨i, taken⟩ := Option.ne_none_iff_exists'.mp fun free => alone (Or.inl free)
    have other : i ≠ t := fun same => alone (Or.inr (same ▸ taken))
    obtain ⟨sync, conversation⟩ := step.conversation_of_idle here locked taken other c
    exact .told [] (sync ▸ .silent) (by simpa using conversation)

/-- Whoever serves the server makes no operation on the bookkeeping. -/
theorem Serves.heard {may : SyncOp → Prop} (serves : Serves h s h' s') (c : Nat) :
    Heard may s s' c := by
  have conversation := serves.conversation c
  obtain ⟨c', connection, registry, handlers, passing, diagnostics, -, -, rfl⟩ := serves
  exact .told [] .silent (by simpa using conversation)

theorem Moved.mute (moved : Moved now h s h' s') (on : s.On c) (locked : s.Locked)
    (mute : s.Mute c) : s'.told c = s.told c ∧ s'.Mute c := by
  cases moved with
  | task t task _ s₁ task' here step => exact mute.stepped on locked here step
  | served _ _ serves =>
    have told := serves.told c
    have effect := serves.effect c
    obtain ⟨c', connection, registry, handlers, passing, diagnostics, -, -, rfl⟩ := serves
    refine ⟨told, mute.imp_left fun cannot => ?_⟩
    by_contra can
    simp [effect.canWrite (by simpa using can)] at cannot

/-! ## Agreement -/

/-- The conversation on a connection goes on, in agreement with the bookkeeping, or it is over. -/
def Agreeing (s : Session) (c : Nat) : Prop :=
  Agrees s.sync (s.conversation c) ∨ s.Mute c ∧ Taken (s.told c)

theorem Heard.agrees {may : SyncOp → Prop} (heard : Heard may s s' c) (covered : s.sync.Covered)
    (agrees : Agrees s.sync (s.conversation c)) : s'.Agreeing c := by
  cases heard with
  | told notes telling heard => exact Or.inl (heard ▸ agrees.telling covered telling)
  | dropped uri generation params idle free taken heard =>
    have effect := DocumentSync.step_transition covered (.takeStaged uri generation)
    rw [taken] at effect
    exact Or.inl (heard ▸ agrees.congr effect.isAnnounced_of_released)
  | ended cause mute sync told => exact Or.inr ⟨mute, told ▸ .of_agrees agrees⟩

end Session

namespace Scene

variable {setup : Setup} {moves : List Move} {d d' : Scene} {t c : Nat} {kind : SyncKind}

/-- What happens outside is no part of the conversation. -/
theorem Aside.conversation {s s' : Session} (aside : Aside s s') (c : Nat) :
    s'.conversation c = s.conversation c := by
  have owed : s'.owed = s.owed := by
    rw [aside.rest]
    simp only [Session.owed]
    cases s.syncOwner with
    | none => rfl
    | some t =>
      cases here' : s'.tasks[t]? with
      | none =>
        have outside : s.tasks[t]? = none :=
          List.getElem?_eq_none (Nat.le_trans aside.grown (List.getElem?_eq_none_iff.mp here'))
        simp [here', outside]
      | some x =>
        rcases aside.place t x here' with
          same | ⟨none, fresh⟩ | ⟨method, params, cancelled, p, here, rfl⟩
        · simp [here', same]
        · cases fresh <;> simp [here', none, Task.owed]
        · simp [here', here, Task.owed]
  have told : s'.told c = s.told c := by
    rw [aside.rest]
    rfl
  rw [Session.conversation, told, owed, Session.conversation]

/-- Who makes a move may make some operations on the bookkeeping: a task, if it takes a step. -/
def Asks (d : Scene) (move : Move) (op : SyncOp) : Prop :=
  ∃ (t : Nat) (task : Task), move = .act (.task t) ∧ d.session.tasks[t]? = some task ∧ task.Asks op

/-- Every move goes on with the conversation, or ends it. -/
theorem heard_step (covered : d.session.sync.Covered) (locked : d.session.Locked)
    (on : d.session.On c) (move : Move) :
    Session.Heard (d.Asks move) d.session (d.step move).session c := by
  by_cases task : ∃ t, move = .act (.task t)
  · obtain ⟨t, rfl⟩ := task
    rcases step_task covered t with same | ⟨task, h, s₁, task', here, step, same⟩ <;> rw [same]
    · exact .told [] .silent (by simp)
    · exact (step.heard here on locked).mono fun op asks => ⟨t, task, rfl, here, asks⟩
  · rcases (step_beside fun t same => task ⟨t, same⟩).cases with ⟨-, serves⟩ | ⟨aside, -⟩
    · exact serves.heard c
    · refine .told [] ?_ (by simpa using aside.conversation c)
      rw [aside.rest]
      exact .silent

/-- Once the session has begun to run, every move goes on with the conversation, or ends it. -/
theorem RanOn.heard (ran : RanOn setup moves t c kind) (move : Move) :
    Session.Heard (((machine setup).after moves).Asks move) ((machine setup).after moves).session
      ((machine setup).after (moves ++ [move])).session c := by
  rw [Machine.after_concat]
  exact heard_step (covered_after moves) (locked_after moves) ran.on move

/-- When the conversation is over, nothing is told any more. -/
theorem Change.mute (change : Change d d') (locked : d.session.Locked) (on : d.session.On c)
    (mute : d.session.Mute c) : d'.session.told c = d.session.told c ∧ d'.session.Mute c := by
  rcases change.cases with ⟨-, moved⟩ | ⟨aside, -⟩
  · exact moved.mute on locked mute
  · have told : d'.session.told c = d.session.told c := by
      rw [aside.rest]
      rfl
    refine ⟨told, ?_⟩
    rcases mute with cannot | ⟨unused, idle⟩
    · refine Or.inl ?_
      rw [aside.rest]
      exact cannot
    · refine Or.inr ⟨by rw [aside.rest]; exact unused, fun t x here holds => ?_⟩
      rcases aside.place t x here with same | ⟨-, fresh⟩ | ⟨method, params, cancelled, p, -, rfl⟩
      · exact idle t x same holds
      · cases fresh <;> exact holds.elim
      · exact holds.elim

/-- Once the session has begun to run, the conversation goes on in agreement with the bookkeeping until
    it is over. -/
theorem RanOn.agreeing (ran : RanOn setup moves t c kind) :
    ((machine setup).after moves).session.Agreeing c := by
  refine ran_induction (fun _ d => d.session.Agreeing c) ?_ ?_ ran
  · intro moves move quiet step
    refine Or.inl ?_
    have owed := (locked_after (moves ++ [move])).owed step.here (Or.inr step.syncOwner)
    rw [Session.conversation, step.told c, quiet.silent c, owed, step.sync]
    exact Agrees.nil quiet.closed
  · rintro moves move d d' rfl rfl ran change (agrees | ⟨mute, taken⟩)
    · exact (ran.heard move).agrees (covered_after moves) agrees
    · obtain ⟨same, mute'⟩ := change.mute (locked_after moves) ran.on mute
      exact Or.inr ⟨mute', same ▸ taken⟩

/-- A server can take all that it is told of documents, on any connection. -/
theorem taken_after (moves : List Move) (c : Nat) :
    Session.Taken (((machine setup).after moves).session.told c) := by
  have nothing : Session.Taken [] := ⟨by simp, by simp⟩
  rcases quiet_or_ranOn moves with quiet | ⟨t, c', kind, ran⟩
  · exact quiet.silent c ▸ nothing
  · by_cases same : c = c'
    · subst same
      rcases ran.agreeing with agrees | ⟨-, taken⟩
      · exact .of_agrees agrees
      · exact taken
    · exact ran.on.silent c same ▸ nothing

end Scene

end LanguageClient
