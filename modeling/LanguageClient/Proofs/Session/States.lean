import LanguageClient.Proofs.Session.Run
/-!
# The states of a session

Five kinds of tasks move the state of a session, and each looks at the state before it does.
`SessionState.Next` lists what may follow what, and `Moved.state_cases` shows that nothing else does.

One start at a time is under way: whoever is past the beginning of a start, and not at its end, holds
the lock on starting (`starter_after`).
-/

namespace LanguageClient

/-- A state that may come next after another. -/
inductive SessionState.Next : SessionState → SessionState → Prop where
  | begun : Next .initial .starting
  | stoppedEarly : Next .initial .stopping
  | ran : Next .starting .running
  | failed : Next .starting .startFailed
  | interrupted : Next .starting .stopping
  | stoppedRunning : Next .running .stopping
  | lost : Next .running .stopped
  | begunAgain : Next .startFailed .starting
  | stoppedFailed : Next .startFailed .stopping
  | stopped : Next .stopping .stopped

/-- A start under way: it has begun, and has not ended. -/
def StartPhase.UnderWay : StartPhase → Prop
  | .locking | .ended _ => False
  | _ => True

namespace Session

variable {now : Nat} {h h' : Host} {s s' : Session} {t i : Nat} {task task' : Task}

/-! ## Changes of the state -/

theorem TeardownStep.state {p p' : Teardown} (step : TeardownStep s p s' p') :
    s'.state = s.state := by
  cases step <;> rfl

theorem Called.state {c : Nat} {call call' : Call} (step : Called now s c call s' call') :
    s'.state = s.state := by
  obtain ⟨connection, rfl⟩ := step.eq_setConnection
  rfl

/-- A start goes on in the same state, or moves the state on: to starting when it begins, to running
    when it has configured the documents, and to start-failed when it has taken down what there
    was. -/
theorem StartStep.state_cases {p p' : StartPhase} (step : StartStep now h s t p h' s' p') :
    s'.state = s.state ∨ SessionState.Next s.state s'.state ∧
      (s'.state = .running → ∃ c kind, p = .configuring c kind ∧ p' = .greeting c kind) ∧
      (s'.state = .startFailed → ∃ e down, p = .failing e down) ∧
      (s'.state = .starting → p = .locking) ∧ s'.state ≠ .stopping := by
  cases step with
  -- the lock is taken in one of the two states a start begins from
  | begun free ready =>
    refine Or.inr ⟨?_, by simp⟩
    rcases ready with ready | ready <;> rw [ready]
    · exact .begun
    · exact .begunAgain
  | ran c kind free starting =>
    refine Or.inr ⟨?_, fun _ => ⟨c, kind, rfl, rfl⟩, by simp [lockSync]⟩
    rw [starting]
    exact .ran
  | failed e t s₁ step starting | failedQuietly e t s₁ step starting =>
    refine Or.inr ⟨?_, by simp [unlockStart], fun _ => ⟨e, t, rfl⟩, by simp [unlockStart]⟩
    rw [← step.state, starting]
    exact .failed
  | published c _ call begun => exact Or.inl begun.state
  | called c attempt call _ call' unanswered step => exact Or.inl step.state
  | concluded c attempt call result _ _ _ ended next => cases next <;> exact Or.inl rfl
  | answered c attempt call s₁ call' result _ _ _ unanswered step ended next =>
    cases next <;> exact Or.inl step.state
  | retried c attempt _ _ call place begun => exact Or.inl begun.state
  | listed c _ _ next | announced c params rest _ _ can next => cases next <;> exact Or.inl rfl
  | tore e t _ t' step => exact Or.inl step.state
  | failedLate e t s₁ step => exact Or.inl step.state
  | _ => exact Or.inl rfl

theorem StopStep.state_cases {p p' : StopPhase} (step : StopStep now s p s' p') :
    s'.state = s.state ∨ SessionState.Next s.state s'.state ∧
      (s'.state = .stopping ∨ s'.state = .stopped) := by
  cases step with
  | begun live =>
    refine Or.inr ⟨?_, by simp⟩
    cases state : s.state with
    | initial => exact .stoppedEarly
    | starting => exact .interrupted
    | running => exact .stoppedRunning
    | startFailed => exact .stoppedFailed
    | stopping => exact absurd state live.1
    | stopped => exact absurd state live.2
  | stopped t s₁ step =>
    by_cases stopping : s₁.state = .stopping
    · refine Or.inr ⟨?_, by simp [stopping]⟩
      simp only [stopping, if_true]
      rw [← step.state, stopping]
      exact .stopped
    · exact Or.inl (by simpa [stopping] using step.state)
  | asked c _ call free begun => exact Or.inl begun.state
  | called c call _ call' unanswered step => exact Or.inl step.state
  | tore t _ t' step => exact Or.inl step.state
  | _ => exact Or.inl rfl

theorem WatchStep.state_cases {c : Nat} {p p' : WatchPhase} (step : WatchStep h s c p h' s' p') :
    s'.state = s.state ∨ SessionState.Next s.state s'.state ∧ s'.state = .stopped := by
  cases step with
  | noticed past running =>
    refine Or.inr ⟨?_, rfl⟩
    rw [running]
    exact .lost
  | tore t _ t' step => exact Or.inl step.state
  | _ => exact Or.inl rfl

theorem EventStep.state {e : DocumentEvent} {p p' : EventPhase}
    (step : EventStep now h s t e p s' p') : s'.state = s.state := by
  cases step with
  | ahead e c params _ _ can next =>
    rcases next with ⟨uri, reason, -, -, rfl⟩ | ⟨uri, text, -, -, rfl⟩ | ⟨-, rfl⟩ <;> rfl
  | _ => rfl

theorem DeliveryStep.state {uri : String} {generation deadline : Nat} {p p' : DeliveryPhase}
    (step : DeliveryStep now s t uri generation deadline p s' p') : s'.state = s.state := by
  cases step <;> rfl

theorem QueryStep.state {q : EditQuery} {p p' : QueryPhase} (step : QueryStep now h s t q p s' p') :
    s'.state = s.state := by
  cases step with
  | ahead c _ _ _ place next =>
    cases next with
    | flushed => rfl
    | asked _ call nothing begun => exact begun.state
  | wrote c params _ call can begun => exact begun.state
  | called c call _ call' unanswered step => exact step.state
  | _ => rfl

theorem RequestStep.state {method : String} {params : Option Json} {cancelled : Bool}
    {p p' : RequestPhase} (step : RequestStep now s method params cancelled p s' p') :
    s'.state = s.state := by
  cases step with
  | asked c _ call current begun => exact begun.state
  | called c call _ call' unanswered step => exact step.state
  | _ => rfl

/-- **The law of states.**  A step leaves the state, or moves it on to one that may come next.  Only a
    start that has configured the documents makes the session running, only one that has failed makes
    it start-failed, only one that begins makes it starting, and only a stop makes it stopping. -/
theorem TaskStep.state_cases (step : TaskStep now h s t task h' s' task') :
    s'.state = s.state ∨ SessionState.Next s.state s'.state ∧
      (s'.state = .running → ∃ c kind, task = .start (.configuring c kind) ∧
        task' = .start (.greeting c kind)) ∧
      (s'.state = .startFailed → ∃ e down, task = .start (.failing e down)) ∧
      (s'.state = .starting → task = .start .locking) ∧
      (s'.state = .stopping → ∃ p, task = .stop p) := by
  cases step with
  | start p _ _ p' step =>
    refine step.state_cases.imp_right fun ⟨next, ran, failed, begun, other⟩ =>
      ⟨next, fun running => ?_, fun is => ?_, fun is => congrArg _ (begun is), fun is => absurd is other⟩
    · obtain ⟨c, kind, rfl, rfl⟩ := ran running
      exact ⟨c, kind, rfl, rfl⟩
    · obtain ⟨e, down, rfl⟩ := failed is
      exact ⟨e, down, rfl⟩
  | stop p _ p' step =>
    refine step.state_cases.imp_right fun ⟨next, halts⟩ => ⟨next, ?_, ?_, ?_, fun _ => ⟨p, rfl⟩⟩ <;>
      rcases halts with halts | halts <;> simp [halts]
  | watch c p _ _ p' step =>
    refine step.state_cases.imp_right fun ⟨next, stopped⟩ => ⟨next, ?_⟩
    simp [stopped]
  | event e p _ p' step => exact Or.inl step.state
  | delivery uri generation deadline p _ p' step => exact Or.inl step.state
  | query q p _ p' step => exact Or.inl step.state
  | request method params cancelled p _ p' step => exact Or.inl step.state

theorem Moved.state_cases (moved : Moved now h s h' s') :
    s'.state = s.state ∨ SessionState.Next s.state s'.state := by
  cases moved with
  | served _ _ serves =>
    obtain ⟨c, connection, registry, handlers, passing, diagnostics, -, -, rfl⟩ := serves
    exact Or.inl rfl
  | task t task _ s₁ task' here step => exact step.state_cases.imp_right And.left

/-! ## The lock on starting -/

/-- What starts work on stays the same: the lock on starting, and the note that a failure was shown;
    and so do the name and the options. -/
structure StartKept (s s' : Session) : Prop where
  starter : s'.starter = s.starter
  reported : s'.reported = s.reported
  name : s'.name = s.name
  options : s'.options = s.options

theorem StartKept.trans {s₁ : Session} (h : StartKept s s₁) (h' : StartKept s₁ s') :
    StartKept s s' :=
  ⟨h'.starter.trans h.starter, h'.reported.trans h.reported, h'.name.trans h.name,
    h'.options.trans h.options⟩

theorem TeardownStep.startKept {p p' : Teardown} (step : TeardownStep s p s' p') :
    StartKept s s' := by
  cases step <;> exact ⟨rfl, rfl, rfl, rfl⟩

theorem Called.startKept {c : Nat} {call call' : Call} (step : Called now s c call s' call') :
    StartKept s s' := by
  obtain ⟨connection, rfl⟩ := step.eq_setConnection
  exact ⟨rfl, rfl, rfl, rfl⟩

/-- A start takes the lock when it begins, and keeps it to its end; nobody else touches the lock. -/
theorem StartStep.starter_cases {p p' : StartPhase} (step : StartStep now h s t p h' s' p') :
    (p'.UnderWay ∧ p.UnderWay ∧ s'.starter = s.starter) ∨
    (p'.UnderWay ∧ s.starter = none ∧ s'.starter = some t) ∨
    (¬ p'.UnderWay ∧ (s'.starter = s.starter ∨ p.UnderWay ∧ s'.starter = none)) := by
  cases step with
  | begun free ready => exact Or.inr (Or.inl ⟨trivial, free, rfl⟩)
  | passed | refused => exact Or.inr (Or.inr ⟨id, Or.inl rfl⟩)
  | greetedOnly | failedQuietly | failedLate | reported =>
    exact Or.inr (Or.inr ⟨id, Or.inr ⟨trivial, rfl⟩⟩)
  | listed c _ _ next | announced c params rest _ _ can next =>
    cases next with
    | finished => exact Or.inr (Or.inr ⟨id, Or.inr ⟨trivial, rfl⟩⟩)
    | next => exact Or.inl ⟨trivial, trivial, rfl⟩
  | connected outcome rest _ next =>
    rcases next with rfl | rfl | ⟨reason, rfl⟩ <;> exact Or.inl ⟨trivial, trivial, rfl⟩
  | published c _ call begun => exact Or.inl ⟨trivial, trivial, begun.startKept.starter⟩
  | called c attempt call _ call' unanswered step =>
    exact Or.inl ⟨trivial, trivial, step.startKept.starter⟩
  | concluded c attempt call result _ _ _ ended next =>
    cases next <;> exact Or.inl ⟨trivial, trivial, rfl⟩
  | answered c attempt call s₁ call' result _ _ _ unanswered step ended next =>
    cases next <;> exact Or.inl ⟨trivial, trivial, step.startKept.starter⟩
  -- a retry is decided with the lock in hand
  | retried c attempt _ _ call place begun =>
    rcases place with ⟨failure, rfl⟩ | ⟨failure, deadline, rfl⟩ <;>
      exact Or.inl ⟨trivial, trivial, begun.startKept.starter⟩
  | gaveUp c attempt _ failure place =>
    rcases place with ⟨reply, rfl⟩ | ⟨deadline, reply, rfl⟩ <;> exact Or.inl ⟨trivial, trivial, rfl⟩
  | unwritten c _ e place cannot =>
    rcases place with ⟨kind, rfl⟩ | ⟨params, rest, rfl⟩ <;> exact Or.inl ⟨trivial, trivial, rfl⟩
  | tore e t _ t' step => exact Or.inl ⟨trivial, trivial, step.startKept.starter⟩
  | failed e t s₁ step => exact Or.inl ⟨trivial, trivial, step.startKept.starter⟩
  | _ => exact Or.inl ⟨trivial, trivial, rfl⟩

/-- A task that is no start does not touch what starts work on. -/
theorem TaskStep.startKept (step : TaskStep now h s t task h' s' task')
    (other : ∀ p, task ≠ .start p) : StartKept s s' := by
  have called : ∀ {s₁ : Session} {c : Nat} {call call' : Call}, Called now s₁ c call s' call' →
      StartKept s s₁ → StartKept s s' := fun step kept => kept.trans step.startKept
  cases step with
  -- calls and teardowns touch a connection, and nothing that belongs to a start
  | start p => exact absurd rfl (other p)
  | stop p _ p' step =>
    cases step with
    | asked c _ call free begun => exact called begun ⟨rfl, rfl, rfl, rfl⟩
    | called c call _ call' unanswered step => exact step.startKept
    | tore t _ t' step => exact step.startKept
    | stopped t _ step => exact step.startKept.trans ⟨rfl, rfl, rfl, rfl⟩
    | _ => exact ⟨rfl, rfl, rfl, rfl⟩
  | watch c p _ _ p' step =>
    cases step with
    | tore t _ t' step => exact step.startKept
    | _ => exact ⟨rfl, rfl, rfl, rfl⟩
  | event e p _ p' step =>
    cases step with
    | ahead e c params _ _ can next =>
      rcases next with ⟨uri, reason, -, -, rfl⟩ | ⟨uri, text, -, -, rfl⟩ | ⟨-, rfl⟩ <;>
        exact ⟨rfl, rfl, rfl, rfl⟩
    | _ => exact ⟨rfl, rfl, rfl, rfl⟩
  | delivery uri generation deadline p _ p' step => cases step <;> exact ⟨rfl, rfl, rfl, rfl⟩
  | query q p _ p' step =>
    cases step with
    | ahead c _ _ _ place next =>
      cases next with
      | flushed => exact ⟨rfl, rfl, rfl, rfl⟩
      | asked _ call nothing begun => exact called begun ⟨rfl, rfl, rfl, rfl⟩
    | wrote c params _ call can begun => exact called begun ⟨rfl, rfl, rfl, rfl⟩
    | called c call _ call' unanswered step => exact step.startKept
    | _ => exact ⟨rfl, rfl, rfl, rfl⟩
  | request method params cancelled p _ p' step =>
    cases step with
    | asked c _ call current begun => exact begun.startKept
    | called c call _ call' unanswered step => exact step.startKept
    | _ => exact ⟨rfl, rfl, rfl, rfl⟩

/-- Whoever starts the session holds the lock on starting. -/
def Guarded (s : Session) : Prop :=
  ∀ t p, s.tasks[t]? = some (.start p) → p.UnderWay → s.starter = some t

theorem Guarded.unique {t' : Nat} {p p' : StartPhase} (guarded : s.Guarded)
    (here : s.tasks[t]? = some (.start p)) (on : p.UnderWay)
    (here' : s.tasks[t']? = some (.start p')) (on' : p'.UnderWay) : t = t' := by
  have := (guarded t p here on).symm.trans (guarded t' p' here' on')
  exact Option.some.inj this

theorem Moved.guarded (moved : Moved now h s h' s') (guarded : s.Guarded) : s'.Guarded := by
  cases moved with
  | served _ _ serves =>
    obtain ⟨c, connection, registry, handlers, passing, diagnostics, -, -, rfl⟩ := serves
    exact guarded
  | task t task _ s₁ task' here step =>
    intro i p here' on
    change s₁.starter = some i
    rcases step.at here here' with ⟨rfl, rfl⟩ | ⟨other, same | ⟨-, born⟩⟩
    · cases step with
      | start q _ _ _ step =>
        rcases step.starter_cases with ⟨-, under, kept⟩ | ⟨-, -, taken⟩ | ⟨past, -⟩
        · rw [kept, guarded i q here under]
        · exact taken
        · exact absurd on past
    · -- another start under way holds the lock, so the step does not change it
      have held := guarded i p same on
      by_cases start : ∃ q, task = .start q
      · obtain ⟨q, rfl⟩ := start
        have alone : ¬ q.UnderWay := fun under => other (guarded.unique same on here under)
        cases step with
        | start _ _ _ q' step =>
          rcases step.starter_cases with ⟨-, under, -⟩ | ⟨-, free, -⟩ | ⟨-, kept | ⟨under, -⟩⟩
          · exact absurd under alone
          · simp [free] at held
          · rw [kept, held]
          · exact absurd under alone
      · rw [(step.startKept fun q same => start ⟨q, same⟩).starter, held]
    · cases born

end Session

namespace Scene

variable {setup : Setup} {moves : List Move} {d d' : Scene}

theorem Change.state_cases (change : Change d d') :
    d'.session.state = d.session.state ∨
      SessionState.Next d.session.state d'.session.state := by
  rcases change.cases with ⟨-, moved⟩ | ⟨aside, -⟩
  · exact moved.state_cases
  · exact Or.inl (by rw [aside.rest])

theorem Change.guarded (change : Change d d') (guarded : d.session.Guarded) :
    d'.session.Guarded := by
  rcases change.cases with ⟨-, moved⟩ | ⟨aside, -⟩
  · exact moved.guarded guarded
  · intro t p here on
    rw [aside.rest]
    rcases aside.place t _ here with same | ⟨-, fresh⟩ | ⟨method, params, cancelled, p, -, other⟩
    · exact guarded t p same on
    · cases fresh
      exact absurd on id
    · simp at other

theorem guarded_after (moves : List Move) : ((machine setup).after moves).session.Guarded := by
  refine run_changes (fun _ d => d.session.Guarded) ?_ ?_ moves
  · simp [machine, Session.ofConfig, Session.Guarded]
  · exact fun _ _ _ _ _ _ change h => change.guarded h

end Scene

end LanguageClient
