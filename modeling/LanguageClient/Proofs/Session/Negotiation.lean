import LanguageClient.Proofs.Session.Agreement
import LanguageClient.Proofs.Session.LifeCycle
/-!
# What was agreed on holds for the whole run

The result of the handshake on a connection is recorded once (`recorded_after`), the kind of
synchronisation in it is the one that the session runs with (`RanOn.kind_eq`), and the bookkeeping keeps
that kind (`RanOn.sync_kind`).  With no synchronisation the server is told nothing of documents
(`told_of_none`).
-/

namespace LanguageClient

namespace Session

variable {now : Nat} {h h' : Host} {s s' : Session} {t i c : Nat} {task task' : Task}

/-! ## The kind of synchronisation -/

/-- Only a start that configures the documents changes the kind. -/
theorem SyncUse.kind (use : SyncUse s task s') (covered : s.sync.Covered)
    (other : ∀ c kind, task ≠ .start (.configuring c kind)) : s'.sync.kind = s.sync.kind := by
  cases use with
  | same sync => rw [sync]
  | held op holds asks sync =>
    rw [sync]
    exact (DocumentSync.step_transition covered op).kind asks.configured
  | taken uri generation free sync =>
    rw [sync]
    exact (DocumentSync.step_transition covered _).kind (by simp)
  | configured c kind free place => exact absurd place (other c kind)
  | reset free sync => rw [sync]; rfl

theorem Moved.kind (moved : Moved now h s h' s') (covered : s.sync.Covered) (on : s.On c) :
    s'.sync.kind = s.sync.kind := by
  cases moved with
  | task t task _ s₁ task' here step =>
    refine step.sync_use.kind covered fun c' kind place => ?_
    subst place
    exact on.past t _ here
  | served _ _ serves =>
    obtain ⟨c', connection, registry, handlers, passing, diagnostics, -, -, rfl⟩ := serves
    rfl

/-- The server has nothing open, and is told nothing. -/
structure Silent (s : Session) (c : Nat) : Prop where
  closed : ∀ uri, s.sync.isAnnounced uri = false
  silent : s.conversation c = []

theorem Heard.silent {may : SyncOp → Prop} (heard : Heard may s s' c) (covered : s.sync.Covered)
    (none : s.sync.kind = .none) (silent : s.Silent c) : s'.Silent c := by
  cases heard with
  | told notes telling heard =>
    obtain ⟨rfl, closed⟩ := telling.of_none covered none silent.closed
    exact ⟨closed, by simpa [silent.silent] using heard⟩
  | dropped uri generation params idle free taken heard =>
    have effect := DocumentSync.step_transition covered (.takeStaged uri generation)
    rw [taken] at effect
    exact ⟨fun uri => (effect.isAnnounced_of_released uri).trans (silent.closed uri),
      heard.trans silent.silent⟩
  | ended cause mute sync told owed =>
    have untold : s.told c = [] := (List.append_eq_nil_iff.mp silent.silent).1
    refine ⟨fun uri => ?_, by simp [Session.conversation, told, untold, owed]⟩
    rcases sync with sync | sync
    · rw [sync]
      exact silent.closed uri
    · rw [sync]
      rfl

/-! ## The result of the handshake -/

/-- A start publishes a new connection. -/
theorem StartStep.publishes {p : StartPhase} (step : StartStep now h s t p h' s' (.publishing c)) :
    c = s.connections.length := by
  generalize place : StartPhase.publishing c = p' at step
  cases step with
  | held => simpa using place
  | connected outcome rest _ next =>
    rcases next with rfl | rfl | ⟨reason, rfl⟩ <;> simp [failStart] at place
  | concluded _ _ _ _ _ _ _ _ next | answered _ _ _ _ _ _ _ _ _ _ _ _ next =>
    cases next <;> simp [failStart] at place
  | listed _ _ _ next | announced _ _ _ _ _ _ next => cases next <;> simp at place
  | _ => simp [failStart] at place

/-- After a start has recorded the result of its handshake, it configures the documents by it. -/
theorem StartStep.of_recording {r : InitializeResult} {p' : StartPhase}
    (step : StartStep now h s t (.recording c r) h' s' p') :
    p' = .configuring c r.capabilities.syncKind := by
  cases step with
  | recorded => rfl
  | retried _ _ _ _ _ place | gaveUp _ _ _ _ place | unwritten _ _ _ place => simp at place

/-- After a start has configured the documents, the handshake is over. -/
theorem StartStep.of_configuring {kind : SyncKind} {p' : StartPhase}
    (step : StartStep now h s t (.configuring c kind) h' s' p') (c' : Nat) : ¬ p'.Shakes c' := by
  cases step with
  | ran | overtaken => exact id
  | retried _ _ _ _ _ place | gaveUp _ _ _ _ place | unwritten _ _ _ place => simp at place

theorem Moved.connections_le (moved : Moved now h s h' s') :
    s.connections.length ≤ s'.connections.length := by
  cases moved with
  | task t task _ s₁ task' here step => exact step.talk.length_le
  | served _ _ serves =>
    obtain ⟨c', connection, registry, handlers, passing, diagnostics, -, -, rfl⟩ := serves
    simp [setConnection]

end Session

namespace Scene

variable {setup : Setup} {moves : List Move} {d d' : Scene} {t c : Nat} {kind : SyncKind}

theorem Change.connections_le (change : Change d d') :
    d.session.connections.length ≤ d'.session.connections.length := by
  rcases change.cases with ⟨-, moved⟩ | ⟨aside, -⟩
  · exact moved.connections_le
  · rw [aside.rest]

/-- A start has recorded a result of the handshake on a connection. -/
def Recorded (setup : Setup) (moves : List Move) (c : Nat) (r : InitializeResult) : Prop :=
  (machine setup).Once moves fun d =>
    ∃ t : Nat, d.session.tasks[t]? = some (.start (.recording c r))

/-- A connection whose handshake has come to a result has no other handshake: a start on it stands with
    that result, or is past it. -/
structure Kept (c : Nat) (r : InitializeResult) (d : Scene) : Prop where
  inside : c < d.session.connections.length
  unpublished : ∀ t : Nat, d.session.tasks[t]? ≠ some (.start (.publishing c))
  place : ∀ (t : Nat) (p : StartPhase), d.session.tasks[t]? = some (.start p) → p.Shakes c →
    p = .recording c r ∨ p = .configuring c r.capabilities.syncKind

theorem Change.kept {r : InitializeResult} (change : Change d d') (kept : Kept c r d) :
    Kept c r d' := by
  refine ⟨Nat.lt_of_lt_of_le kept.inside change.connections_le, fun t here' => ?_,
    fun t p here' shakes => ?_⟩
  · rcases change.start_at here' with same | place | ⟨q, h', s', here, step⟩
    · exact kept.unpublished t same
    · simp at place
    · exact absurd step.publishes (Nat.ne_of_lt kept.inside)
  · rcases change.start_at here' with same | rfl | ⟨q, h', s', here, step⟩
    · exact kept.place t p same shakes
    · exact shakes.elim
    · rcases step.shakes shakes with shook | ⟨rfl, -⟩
      · rcases kept.place t q here shook with rfl | rfl
        · exact Or.inr step.of_recording
        · exact absurd shakes (step.of_configuring c)
      · exact absurd here (kept.unpublished t)

/-- The handshake on a connection comes to one result. -/
theorem recorded_after {r : InitializeResult} (recorded : Recorded setup moves c r) :
    Kept c r ((machine setup).after moves) := by
  refine run_changes (fun moves d => Recorded setup moves c r → Kept c r d) ?_ ?_ moves recorded
  · intro recorded
    obtain ⟨t, here⟩ := Machine.once_nil.mp recorded
    simp [machine, Session.ofConfig] at here
  · rintro moves move d d' rfl rfl change ih recorded
    rcases Machine.once_concat.mp recorded with earlier | ⟨t, here⟩
    · exact change.kept (ih earlier)
    · -- the start that has recorded the result is the only one under way
      have guarded := @guarded_after setup (moves ++ [move])
      refine ⟨(grounded_after (moves ++ [move])).worked t _ c here rfl, fun i there => ?_,
        fun i p there shakes => ?_⟩
      · obtain rfl := guarded.unique there trivial here trivial
        rw [here] at there
        simp at there
      · obtain rfl := guarded.unique there shakes.underWay here trivial
        rw [here] at there
        exact Or.inl (Task.start.inj (Option.some.inj there)).symm

/-- A session runs with the kind of synchronisation that the handshake has come to. -/
theorem RanOn.kind_eq {r : InitializeResult} (ran : RanOn setup moves t c kind)
    (recorded : Recorded setup moves c r) : kind = r.capabilities.syncKind := by
  obtain ⟨before, move, later, rfl, quiet, step⟩ := ran
  obtain ⟨earlier, rest, split, once⟩ := recorded
  -- the result was recorded before the session began to run, for afterwards no start can be there
  have first : Recorded setup before c r := by
    rcases List.append_eq_append_iff.mp split with ⟨between, rfl, more⟩ | ⟨between, rfl, -⟩
    · cases between with
      | nil => exact Machine.Once.now (by simpa using once)
      | cons first between =>
        obtain ⟨rfl, rfl⟩ := by simpa using more
        obtain ⟨i, here⟩ := once
        have ran : RanOn setup (before ++ move :: between) t c kind :=
          ⟨before, move, between, rfl, quiet, step⟩
        exact (ran.on.past i _ here).elim
    · exact ⟨earlier, between, rfl, once⟩
  rcases (recorded_after first).place t _ step.place rfl with place | place
  · simp at place
  · simpa using place

/-! ## The kind along a run -/

/-- The session goes on with the kind of synchronisation that it began to run with. -/
theorem RanOn.sync_kind (ran : RanOn setup moves t c kind) :
    ((machine setup).after moves).session.sync.kind = kind := by
  refine ran_induction (fun _ d => d.session.sync.kind = kind) ?_ ?_ ran
  · intro moves move quiet step
    rw [step.sync]
    rfl
  · rintro moves move d d' rfl rfl ran change same
    rw [← same]
    rcases change.cases with ⟨-, moved⟩ | ⟨aside, -⟩
    · exact moved.kind (covered_after moves) ran.on
    · rw [aside.rest]

/-- Without synchronisation the server is told nothing of documents. -/
theorem RanOn.silent (ran : RanOn setup moves t c .none) :
    ((machine setup).after moves).session.Silent c := by
  refine ran_induction (fun _ d => d.session.Silent c) ?_ ?_ ran
  · intro moves move quiet step
    have owed := (locked_after (moves ++ [move])).owed step.here (Or.inr step.syncOwner)
    refine ⟨?_, by rw [Session.conversation, step.told c, quiet.silent c, owed]; rfl⟩
    rw [step.sync]
    exact quiet.closed
  · rintro moves move d d' rfl rfl ran change silent
    exact (ran.heard move).silent (covered_after moves) ran.sync_kind silent

/-- On a connection whose handshake has come to no synchronisation, the server is told nothing of
    documents. -/
theorem told_of_none {r : InitializeResult} (recorded : Recorded setup moves c r)
    (none : r.capabilities.syncKind = .none) : ((machine setup).after moves).session.told c = [] := by
  rcases quiet_or_ranOn moves with quiet | ⟨t, c', kind, ran⟩
  · exact quiet.silent c
  · by_cases same : c = c'
    · subst same
      obtain rfl : kind = .none := (ran.kind_eq recorded).trans none
      exact (List.append_eq_nil_iff.mp ran.silent.silent).1
    · exact ran.on.silent c same

end Scene

end LanguageClient
