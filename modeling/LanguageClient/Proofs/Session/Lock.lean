import LanguageClient.Proofs.Session.Calls
/-!
# The lock on the documents

A task that tells the server of documents holds the lock on them from its first look at the session
to its end, over all steps in between (`Task.HoldsSync`).  `locked_after` says that it does: so no
two of them are under way at the same time, and the bookkeeping changes under the lock only, or while
nobody holds it (`SyncUse.locked`).
-/

namespace LanguageClient

namespace Task

/-- A question knows its connection while it is answered what the server offers just when it comes
    before a save, for then it holds the lock already. -/
def Sound : Task → Prop
  | .query q (.checking c) | .query q (.naming c) | .query q (.matching c _) =>
    c.isSome = Session.isBeforeSave q
  | _ => True

end Task

namespace Session

variable {now : Nat} {h h' : Host} {s s' : Session} {t i : Nat} {task task' : Task}

theorem TaskStep.sound (step : TaskStep now h s t task h' s' task') (sound : task.Sound) :
    task'.Sound := by
  cases step with
  | query q p _ p' step =>
    cases step with
    | began _ next =>
      rcases next with rfl | ⟨layout, rfl⟩ | ⟨result, rfl⟩
      · trivial
      · exact layout.symm
      · trivial
    | regarded c current before => exact before.symm
    | asked c _ _ place =>
      rcases place with ⟨rfl, rfl⟩ | ⟨rfl, language, rfl⟩ <;> exact sound
    | ahead c _ _ _ place next => cases next <;> trivial
    | _ => trivial
  | _ => trivial

/-! ## Who holds the lock -/

theorem TeardownStep.syncOwner {p p' : Teardown} (step : TeardownStep s p s' p') :
    s'.syncOwner = s.syncOwner := by
  cases step <;> rfl

theorem Called.syncOwner {c : Nat} {call call' : Call} (step : Called now s c call s' call') :
    s'.syncOwner = s.syncOwner := by
  obtain ⟨connection, rfl⟩ := step.eq_setConnection
  rfl

/-- A step leaves the lock, takes it, or gives it back at the end of what it was taken for. -/
theorem TaskStep.lock_cases (step : TaskStep now h s t task h' s' task') (sound : task.Sound) :
    (s'.syncOwner = s.syncOwner ∧ (task'.HoldsSync → task.HoldsSync)) ∨
    (s.syncOwner = none ∧ s'.syncOwner = some t ∧ s'.state = .running ∧
      (task'.connection? = none ∨ ∃ c kind, task = .start (.configuring c kind))) ∨
    (task.HoldsSync ∧ s'.syncOwner = none ∧ ¬ task'.HoldsSync) := by
  cases step with
  | start p _ _ p' step =>
    cases step with
    | ran c kind free => exact Or.inr (Or.inl ⟨free, rfl, rfl, Or.inr ⟨c, kind, rfl⟩⟩)
    | greetedOnly c can => exact Or.inr (Or.inr ⟨trivial, rfl, id⟩)
    | listed c _ _ next | announced c params rest _ _ can next =>
      cases next with
      | finished => exact Or.inr (Or.inr ⟨trivial, rfl, id⟩)
      | next => exact Or.inl ⟨rfl, fun _ => trivial⟩
    | unwritten c _ e place cannot =>
      rcases place with ⟨kind, rfl⟩ | ⟨params, rest, rfl⟩ <;>
        exact Or.inr (Or.inr ⟨trivial, rfl, id⟩)
    | greeted => exact Or.inl ⟨rfl, fun _ => trivial⟩
    | connected outcome rest _ next =>
      rcases next with rfl | rfl | ⟨reason, rfl⟩ <;> exact Or.inl ⟨rfl, False.elim⟩
    | published c _ call begun => exact Or.inl ⟨begun.syncOwner, False.elim⟩
    | called c attempt call _ call' unanswered step => exact Or.inl ⟨step.syncOwner, False.elim⟩
    | concluded c attempt call result _ _ _ ended next =>
      cases next <;> exact Or.inl ⟨rfl, False.elim⟩
    | answered c attempt call s₁ call' result _ _ _ unanswered step ended next =>
      cases next <;> exact Or.inl ⟨step.syncOwner, False.elim⟩
    | retried c attempt _ _ call place begun => exact Or.inl ⟨begun.syncOwner, False.elim⟩
    | tore e t _ t' step => exact Or.inl ⟨step.syncOwner, False.elim⟩
    | failed e t s₁ step | failedQuietly e t s₁ step | failedLate e t s₁ step =>
      exact Or.inl ⟨step.syncOwner, False.elim⟩
    | _ => exact Or.inl ⟨rfl, False.elim⟩
  | stop p _ p' step =>
    cases step with
    | asked c _ call free begun => exact Or.inl ⟨begun.syncOwner, False.elim⟩
    | called c call _ call' unanswered step =>
      refine Or.inl ⟨step.syncOwner, fun holds => ?_⟩
      split at holds <;> exact holds
    | closed c p p' connection next step place =>
      rcases place with rfl | rfl <;> exact Or.inl ⟨rfl, False.elim⟩
    | tore t _ t' step | stopped t _ step => exact Or.inl ⟨step.syncOwner, False.elim⟩
    | _ => exact Or.inl ⟨rfl, False.elim⟩
  | watch c p _ _ p' step =>
    cases step with
    | tore t _ t' step => exact Or.inl ⟨step.syncOwner, False.elim⟩
    | _ => exact Or.inl ⟨rfl, False.elim⟩
  | event e p _ p' step =>
    cases step with
    | dropped => exact Or.inl ⟨rfl, False.elim⟩
    | entered _ free running => exact Or.inr (Or.inl ⟨free, rfl, running, Or.inl rfl⟩)
    | stranded | passed | refused | staged | wrote =>
      exact Or.inr (Or.inr ⟨trivial, rfl, id⟩)
    | opened | sent | closed | regarded => exact Or.inl ⟨rfl, fun _ => trivial⟩
    | flushed _ c _ params sync place told =>
      refine Or.inl ⟨rfl, fun _ => ?_⟩
      rcases place with ⟨rfl, -⟩ | rfl | ⟨language, rfl⟩ <;> trivial
    | asked _ c _ _ place =>
      rcases place with ⟨rfl, rfl⟩ | ⟨rfl, language, rfl⟩ <;> exact Or.inl ⟨rfl, fun _ => trivial⟩
    | warned uri reason c _ place =>
      rcases place with rfl | ⟨language, rfl⟩ <;> exact Or.inl ⟨rfl, fun _ => trivial⟩
    | saved uri text text' c _ place =>
      rcases place with rfl | rfl <;> exact Or.inl ⟨rfl, fun _ => trivial⟩
    | left _ c _ place =>
      rcases place with rfl | rfl | ⟨language, rfl⟩ <;> exact Or.inr (Or.inr ⟨trivial, rfl, id⟩)
    | ahead _ c params _ _ can next =>
      rcases next with ⟨uri, reason, -, rfl, rfl⟩ | ⟨uri, text, -, rfl, rfl⟩ | ⟨rfl, rfl⟩
      · exact Or.inl ⟨rfl, fun _ => trivial⟩
      · exact Or.inl ⟨rfl, fun _ => trivial⟩
      · exact Or.inr (Or.inr ⟨trivial, rfl, id⟩)
    | failed _ c _ error place cannot =>
      rcases place with ⟨params, rfl⟩ | ⟨n, rfl⟩ <;> exact Or.inr (Or.inr ⟨trivial, rfl, id⟩)
  | delivery uri generation deadline p _ p' step =>
    cases step with
    | taken params sync free running => exact Or.inr (Or.inl ⟨free, rfl, running, Or.inl rfl⟩)
    | stranded | wrote | failed => exact Or.inr (Or.inr ⟨trivial, rfl, id⟩)
    | found => exact Or.inl ⟨rfl, fun _ => trivial⟩
    | lapsed | due | missed | lost => exact Or.inl ⟨rfl, False.elim⟩
  | query q p _ p' step =>
    cases step with
    | began _ next =>
      rcases next with rfl | ⟨-, rfl⟩ | ⟨result, rfl⟩ <;> exact Or.inl ⟨rfl, False.elim⟩
    | entered free running => exact Or.inr (Or.inl ⟨free, rfl, running, Or.inl rfl⟩)
    | regarded => exact Or.inl ⟨rfl, fun _ => trivial⟩
    | asked c _ _ place =>
      rcases place with ⟨rfl, rfl⟩ | ⟨rfl, language, rfl⟩ <;> cases c <;> exact Or.inl ⟨rfl, id⟩
    | ahead c _ _ _ place next =>
      -- a question that is decided about a connection holds the lock
      have holds : (Task.query q p).HoldsSync := by
        rcases place with ⟨rfl, -⟩ | rfl | ⟨language, rfl⟩ <;> trivial
      cases next with
      | flushed => exact Or.inl ⟨rfl, fun _ => holds⟩
      | asked _ call nothing begun => exact Or.inr (Or.inr ⟨holds, begun.syncOwner, id⟩)
    | left _ result place =>
      refine Or.inr (Or.inr ⟨?_, rfl, id⟩)
      rcases place with rfl | ⟨before, c, language, rfl⟩
      · trivial
      -- a question about the layout does not take the lock
      · have known : c.isSome = isBeforeSave q := sound
        obtain ⟨c', rfl⟩ := Option.isSome_iff_exists.mp (known.trans before)
        trivial
    | wrote c params _ call can begun => exact Or.inr (Or.inr ⟨trivial, begun.syncOwner, id⟩)
    | failed => exact Or.inr (Or.inr ⟨trivial, rfl, id⟩)
    | called c call _ call' unanswered step => exact Or.inl ⟨step.syncOwner, False.elim⟩
    | _ => exact Or.inl ⟨rfl, False.elim⟩
  | request method params cancelled p _ p' step =>
    cases step with
    | asked c _ call current begun => exact Or.inl ⟨begun.syncOwner, False.elim⟩
    | called c call _ call' unanswered step => exact Or.inl ⟨step.syncOwner, False.elim⟩
    | _ => exact Or.inl ⟨rfl, False.elim⟩

/-- Whoever is where it holds the lock does hold it. -/
structure Locked (s : Session) : Prop where
  sound : ∀ (t : Nat) (task : Task), s.tasks[t]? = some task → task.Sound
  holder : ∀ (t : Nat) (task : Task), s.tasks[t]? = some task → task.HoldsSync → s.syncOwner = some t

/-- Two tasks do not hold the lock at the same time. -/
theorem Locked.unique {t' : Nat} (locked : s.Locked) (here : s.tasks[t]? = some task)
    (holds : task.HoldsSync) (here' : s.tasks[t']? = some task') (holds' : task'.HoldsSync) :
    t = t' :=
  Option.some.inj ((locked.holder t task here holds).symm.trans (locked.holder t' task' here' holds'))

/-- Nobody is where it holds the lock while nobody has taken it. -/
theorem Locked.free (locked : s.Locked) (free : s.syncOwner = none)
    (here : s.tasks[t]? = some task) : ¬ task.HoldsSync := fun holds => by
  simp [locked.holder t task here holds] at free

theorem Moved.locked (moved : Moved now h s h' s') (locked : s.Locked) : s'.Locked := by
  cases moved with
  | served _ _ serves =>
    obtain ⟨c, connection, registry, handlers, passing, diagnostics, -, -, rfl⟩ := serves
    exact ⟨locked.sound, locked.holder⟩
  | task t task _ s₁ task' here step =>
    have sound := locked.sound t task here
    constructor
    · intro i x here'
      rcases step.at here here' with ⟨rfl, rfl⟩ | ⟨-, same | ⟨-, born⟩⟩
      · exact step.sound sound
      · exact locked.sound i x same
      · cases born <;> trivial
    · intro i x here' holds
      change s₁.syncOwner = some i
      rcases step.at here here' with ⟨rfl, rfl⟩ | ⟨other, same | ⟨-, born⟩⟩
      · rcases step.lock_cases sound with ⟨kept, before⟩ | ⟨-, taken, -⟩ | ⟨-, -, given⟩
        · rw [kept, locked.holder i task here (before holds)]
        · exact taken
        · exact absurd holds given
      · have held := locked.holder i x same holds
        rcases step.lock_cases sound with ⟨kept, -⟩ | ⟨free, -⟩ | ⟨mine, -⟩
        · rw [kept, held]
        · simp [free] at held
        · exact absurd (locked.unique same holds here mine) other
      · cases born <;> exact absurd holds id

/-- The bookkeeping changes under the lock, or while nobody holds it. -/
theorem SyncUse.locked (use : SyncUse s task s') :
    s'.sync = s.sync ∨ task.HoldsSync ∨ s.syncOwner = none := by
  cases use with
  | same sync => exact Or.inl sync
  | held op holds => exact Or.inr (Or.inl holds)
  | taken _ _ free | configured _ _ free | reset free => exact Or.inr (Or.inr free)

end Session

namespace Scene

variable {setup : Setup} {d d' : Scene}

theorem Change.locked (change : Change d d') (locked : d.session.Locked) : d'.session.Locked := by
  rcases change.cases with ⟨-, moved⟩ | ⟨aside, -⟩
  · exact moved.locked locked
  · constructor
    · intro t task here'
      rcases aside.place t task here' with
        same | ⟨-, fresh⟩ | ⟨method, params, cancelled, p, here, rfl⟩
      · exact locked.sound t task same
      · cases fresh <;> trivial
      · trivial
    · intro t task here' holds
      rw [aside.rest]
      rcases aside.place t task here' with
        same | ⟨-, fresh⟩ | ⟨method, params, cancelled, p, here, rfl⟩
      · exact locked.holder t task same holds
      · cases fresh <;> exact absurd holds id
      · exact absurd holds id

theorem locked_after (moves : List Move) : ((machine setup).after moves).session.Locked := by
  refine run_changes (fun _ d => d.session.Locked) ?_ ?_ moves
  · constructor <;> simp [machine, Session.ofConfig]
  · exact fun _ _ _ _ _ _ change h => change.locked h

end Scene

end LanguageClient
