import LanguageClient.Proofs.Session.Scene
/-!
# Tasks and the bookkeeping along a run

What every step has in common: the task that takes it is the only one to change, new tasks are watches
and deliveries that have not begun, and the bookkeeping changes by one operation at most, made by a task
that holds the lock on the documents or while nobody holds it (`TaskStep.sync_use`).  So the bookkeeping
of every run is in order (`covered_after`), and a property of runs has to be looked at change by change
only (`run_changes`).
-/

namespace LanguageClient

/-- A task is where it holds the lock on the documents. -/
def Task.HoldsSync : Task → Prop
  | .start (.greeting ..) | .start (.listing _) | .start (.announcing ..) => True
  | .event _ .looking | .event _ (.checking _) | .event _ (.naming _) | .event _ (.matching ..)
  | .event _ (.flushing ..) | .event _ (.writing ..) => True
  | .delivery _ _ _ (.looking _) | .delivery _ _ _ (.writing ..) => True
  | .query _ .looking | .query _ (.flushing ..) | .query _ (.checking (some _))
  | .query _ (.naming (some _)) | .query _ (.matching (some _) _) => True
  | _ => False

instance (task : Task) : Decidable task.HoldsSync := by
  unfold Task.HoldsSync
  split <;> infer_instance

/-- The operations on the bookkeeping that a task makes about documents. -/
def Task.Asks (task : Task) : SyncOp → Prop
  | .open d => (∃ p, task = .start p ∧ task.HoldsSync) ∨ task = .event (.opened d) .looking
  | .change change => task = .event (.changed change) .looking
  | .close uri => task = .event (.closed uri) .looking
  | .flush uri => (∃ e p, task = .event e p ∧ e.uri = uri) ∨ ∃ q p, task = .query q p ∧ q.uri = uri
  | .takeStaged uri generation => ∃ deadline p, task = .delivery uri generation deadline p
  | _ => False

theorem Task.Asks.configured {task : Task} {op : SyncOp} (asks : task.Asks op) (kind : SyncKind) :
    op ≠ .configure kind := by
  rintro rfl
  exact asks

theorem Task.Asks.kept {task : Task} {op : SyncOp} (asks : task.Asks op) : op ≠ .reset := by
  rintro rfl
  exact asks

namespace Session

variable {now : Nat} {h h' : Host} {s s' : Session} {t i : Nat} {task task' : Task}

/-! ## Tasks -/

/-- A task that a step of another task has given rise to. -/
inductive Born : Task → Prop where
  | watch (c : Nat) : Born (.watch c .waiting)
  | delivery (uri : String) (generation deadline : Nat) :
      Born (.delivery uri generation deadline .waiting)

theorem Called.eq_setConnection {c : Nat} {call call' : Call} (step : Called now s c call s' call') :
    ∃ connection, s' = s.setConnection c connection := by
  cases step with
  | step connection phase step => exact ⟨connection, rfl⟩

theorem Called.tasks {c : Nat} {call call' : Call} (step : Called now s c call s' call') :
    s'.tasks = s.tasks := by
  obtain ⟨connection, rfl⟩ := step.eq_setConnection
  rfl

theorem Called.sync {c : Nat} {call call' : Call} (step : Called now s c call s' call') :
    s'.sync = s.sync := by
  obtain ⟨connection, rfl⟩ := step.eq_setConnection
  rfl

theorem TeardownStep.tasks {p p' : Teardown} (step : TeardownStep s p s' p') :
    s'.tasks = s.tasks := by
  cases step <;> rfl

/-- A step adds one task at most. -/
theorem TaskStep.tasks (step : TaskStep now h s t task h' s' task') :
    s'.tasks = s.tasks ∨ ∃ born, Born born ∧ s'.tasks = s.tasks ++ [born] := by
  cases step with
  | start p _ _ p' step =>
    cases step with
    | published c _ call begun => exact Or.inr ⟨_, .watch c, begun.tasks⟩
    | called c attempt call _ call' unanswered step => exact Or.inl step.tasks
    | concluded c attempt call result _ _ _ ended next => cases next <;> exact Or.inl rfl
    | answered c attempt call s₁ call' result _ _ _ unanswered step ended next =>
      cases next <;> exact Or.inl step.tasks
    | retried c attempt _ _ call place begun => exact Or.inl begun.tasks
    | listed c _ _ next => cases next <;> exact Or.inl rfl
    | announced c params rest _ _ can next => cases next <;> exact Or.inl rfl
    | tore e t _ t' step => exact Or.inl step.tasks
    | failed e t s₁ step | failedQuietly e t s₁ step | failedLate e t s₁ step =>
      exact Or.inl step.tasks
    | _ => exact Or.inl rfl
  | stop p _ p' step =>
    cases step with
    | asked c _ call free begun => exact Or.inl begun.tasks
    | called c call _ call' unanswered step => exact Or.inl step.tasks
    | tore t _ t' step => exact Or.inl step.tasks
    | stopped t _ step => exact Or.inl step.tasks
    | _ => exact Or.inl rfl
  | watch c p _ _ p' step =>
    cases step with
    | tore t _ t' step => exact Or.inl step.tasks
    | _ => exact Or.inl rfl
  | event e p _ p' step =>
    cases step with
    | staged change c generation sync => exact Or.inr ⟨_, .delivery _ _ _, rfl⟩
    | ahead e c params _ _ can next =>
      rcases next with ⟨uri, reason, -, -, rfl⟩ | ⟨uri, text, -, -, rfl⟩ | ⟨-, rfl⟩ <;>
        exact Or.inl rfl
    | _ => exact Or.inl rfl
  | delivery uri generation deadline p _ p' step => cases step <;> exact Or.inl rfl
  | query q p _ p' step =>
    cases step with
    | ahead c _ _ _ place next =>
      cases next with
      | flushed => exact Or.inl rfl
      | asked _ call nothing begun => exact Or.inl begun.tasks
    | wrote c params _ call can begun => exact Or.inl begun.tasks
    | called c call _ call' unanswered step => exact Or.inl step.tasks
    | _ => exact Or.inl rfl
  | request method params cancelled p _ p' step =>
    cases step with
    | asked c _ call current begun => exact Or.inl begun.tasks
    | called c call _ call' unanswered step => exact Or.inl step.tasks
    | _ => exact Or.inl rfl

/-- After a step the task stands where the step has led it. -/
theorem TaskStep.self (step : TaskStep now h s t task h' s' task') (here : s.tasks[t]? = some task) :
    (s'.setTask t task').tasks[t]? = some task' := by
  have inside : t < s.tasks.length := (List.getElem?_eq_some_iff.mp here).1
  have inside' : t < s'.tasks.length := by
    rcases step.tasks with same | ⟨born, -, more⟩
    · rwa [same]
    · rw [more, List.length_append]
      omega
  simp [setTask, inside']

/-- A step leaves the other tasks where they stand. -/
theorem TaskStep.other {x : Task} (step : TaskStep now h s t task h' s' task') (other : i ≠ t)
    (there : s.tasks[i]? = some x) : (s'.setTask t task').tasks[i]? = some x := by
  have inside : i < s.tasks.length := (List.getElem?_eq_some_iff.mp there).1
  rw [setTask, List.getElem?_set_ne (Ne.symm other)]
  rcases step.tasks with same | ⟨born, -, more⟩
  · rwa [same]
  · rwa [more, List.getElem?_append_left inside]

/-- After a step of a task, the task stands where the step has led it, and every other one where it
    stood, if it is not new. -/
theorem TaskStep.at {x : Task} (step : TaskStep now h s t task h' s' task')
    (here : s.tasks[t]? = some task) (here' : (s'.setTask t task').tasks[i]? = some x) :
    i = t ∧ x = task' ∨ i ≠ t ∧ (s.tasks[i]? = some x ∨ s.tasks[i]? = none ∧ Born x) := by
  by_cases same : i = t
  · subst same
    rw [step.self here, Option.some.injEq] at here'
    exact Or.inl ⟨rfl, here'.symm⟩
  · have other : s'.tasks[i]? = some x := by
      simpa [setTask, List.getElem?_set_ne (Ne.symm same)] using here'
    refine Or.inr ⟨same, ?_⟩
    rcases step.tasks with kept | ⟨born, isBorn, more⟩
    · exact Or.inl (by rwa [kept] at other)
    · rw [more, List.getElem?_append] at other
      split at other
      · exact Or.inl other
      · rename_i outside
        rw [List.getElem?_singleton] at other
        split at other
        · rw [Option.some.injEq] at other
          subst other
          exact Or.inr ⟨List.getElem?_eq_none (Nat.le_of_not_lt outside), isBorn⟩
        · simp at other

/-- Where a task stands after a step: where it stood, or it is new, or it took the step. -/
theorem Moved.at (moved : Moved now h s h' s') (here' : s'.tasks[i]? = some task') :
    s.tasks[i]? = some task' ∨ (s.tasks[i]? = none ∧ Born task') ∨
    ∃ task s₁, s.tasks[i]? = some task ∧ TaskStep now h s i task h' s₁ task' ∧
      s' = s₁.setTask i task' := by
  cases moved with
  | served _ _ serves =>
    obtain ⟨c, connection, registry, handlers, passing, diagnostics, -, -, rfl⟩ := serves
    exact Or.inl here'
  | task t old _ s₁ new here step =>
    rcases step.at here here' with ⟨rfl, rfl⟩ | ⟨-, same | born⟩
    · exact Or.inr (Or.inr ⟨old, s₁, here, step, rfl⟩)
    · exact Or.inl same
    · exact Or.inr (Or.inl born)

/-- A task stays where it stands, or it takes the step. -/
theorem Moved.kept (moved : Moved now h s h' s') (here : s.tasks[i]? = some task) :
    s'.tasks[i]? = some task ∨
    ∃ s₁ task', TaskStep now h s i task h' s₁ task' ∧ s' = s₁.setTask i task' ∧
      s'.tasks[i]? = some task' := by
  cases moved with
  | served _ _ serves =>
    obtain ⟨c, connection, registry, handlers, passing, diagnostics, -, -, rfl⟩ := serves
    exact Or.inl here
  | task t old _ s₁ new there step =>
    by_cases same : i = t
    · subst same
      obtain rfl : task = old := Option.some.inj (here.symm.trans there)
      exact Or.inr ⟨s₁, new, step, rfl, step.self here⟩
    · exact Or.inl (step.other same here)

/-! ## The bookkeeping -/

/-- What a step does to the bookkeeping: nothing, an operation of a task that holds the lock on the
    documents, or one of the three that tell the server nothing and are done while nobody holds the
    lock. -/
inductive SyncUse (s : Session) (task : Task) (s' : Session) : Prop where
  | same (sync : s'.sync = s.sync)
  | held (op : SyncOp) (holds : task.HoldsSync) (asks : task.Asks op)
      (sync : s'.sync = (s.sync.step op).2)
  | taken (uri : String) (generation : Nat) (free : s.syncOwner = none)
      (sync : s'.sync = (s.sync.step (.takeStaged uri generation)).2)
  | configured (c : Nat) (kind : SyncKind) (free : s.syncOwner = none)
      (place : task = .start (.configuring c kind)) (sync : s'.sync = (s.sync.step (.configure kind)).2)
  | reset (free : s.syncOwner = none) (sync : s'.sync = (s.sync.step .reset).2)

theorem TeardownStep.sync_cases {p p' : Teardown} (step : TeardownStep s p s' p') :
    s'.sync = s.sync ∨ p = .resetting ∧ s.syncOwner = none ∧ s'.sync = s.sync.reset := by
  cases step with
  | reset free => exact Or.inr ⟨rfl, free, rfl⟩
  | _ => exact Or.inl rfl

theorem SyncUse.of_teardown {p p' : Teardown} {s₁ : Session} (step : TeardownStep s p s₁ p')
    (sync : s'.sync = s₁.sync) : SyncUse s task s' := by
  rcases step.sync_cases with same | ⟨-, free, reset⟩
  · exact .same (sync.trans same)
  · exact .reset free (sync.trans reset)

theorem Announced.sync_use {c : Nat} {docs : List Document} {p q : StartPhase} {s₁ : Session}
    (next : Announced s₁ c docs s' p) (sync : s₁.sync = s.sync) (holds : (Task.start q).HoldsSync) :
    SyncUse s (.start q) s' := by
  cases next with
  | finished => exact .same sync
  | next skipped d rest params sync' split passed told =>
    exact .held (.open d) holds (Or.inl ⟨q, rfl, holds⟩) (by simp [DocumentSync.step, ← sync, told])

/-- A step makes one operation on the bookkeeping at most. -/
theorem TaskStep.sync_use (step : TaskStep now h s t task h' s' task') : SyncUse s task s' := by
  cases step with
  | start p _ _ p' step =>
    cases step with
    | published c _ call begun => exact .same begun.sync
    | called c attempt call _ call' unanswered step => exact .same step.sync
    | concluded c attempt call result _ _ _ ended next => cases next <;> exact .same rfl
    | answered c attempt call s₁ call' result _ _ _ unanswered step ended next =>
      cases next <;> exact .same step.sync
    | retried c attempt _ _ call place begun => exact .same begun.sync
    | ran c kind free | overtaken c kind free => exact .configured c kind free rfl rfl
    | listed c _ _ next => exact next.sync_use rfl trivial
    | announced c params rest _ _ can next => exact next.sync_use rfl trivial
    | tore e t _ t' step => exact .of_teardown step rfl
    | failed e t s₁ step | failedQuietly e t s₁ step | failedLate e t s₁ step =>
      exact .of_teardown step rfl
    | _ => exact .same rfl
  | stop p _ p' step =>
    cases step with
    | resetAlone _ free | unasked _ _ _ free => exact .reset free rfl
    | asked c _ call free begun => exact .reset free begun.sync
    | called c call _ call' unanswered step => exact .same step.sync
    | tore t _ t' step => exact .of_teardown step rfl
    | stopped t _ step => exact .of_teardown step rfl
    | _ => exact .same rfl
  | watch c p _ _ p' step =>
    cases step with
    | tore t _ t' step => exact .of_teardown step rfl
    | _ => exact .same rfl
  | event e p _ p' step =>
    cases step with
    | opened d c params sync current told =>
      exact .held (.open d) trivial (Or.inr rfl) (by rw [told])
    | sent change c params sync current told =>
      exact .held (.change change) trivial rfl (by rw [told])
    | staged change c generation sync current told =>
      exact .held (.change change) trivial rfl (by rw [told]; rfl)
    | closed uri c params sync current told =>
      exact .held (.close uri) trivial rfl (by rw [told])
    | flushed e c p params sync place told =>
      refine .held (.flush e.uri) ?_ (Or.inl ⟨e, p, rfl, rfl⟩) (by rw [told])
      rcases place with ⟨rfl, -⟩ | rfl | ⟨language, rfl⟩ <;> trivial
    | ahead e c params _ _ can next =>
      rcases next with ⟨uri, reason, -, -, rfl⟩ | ⟨uri, text, -, -, rfl⟩ | ⟨-, rfl⟩ <;>
        exact .same rfl
    | _ => exact .same rfl
  | delivery uri generation deadline p _ p' step =>
    cases step with
    | lost params sync free idle taken => exact .taken uri generation free (by rw [taken])
    | taken params sync free running taken =>
      exact .taken uri generation free (by rw [taken]; rfl)
    | _ => exact .same rfl
  | query q p _ p' step =>
    cases step with
    | ahead c _ _ _ place next =>
      cases next with
      | flushed params sync told =>
        refine .held (.flush q.uri) ?_ (Or.inr ⟨q, p, rfl, rfl⟩) (by rw [told])
        rcases place with ⟨rfl, -⟩ | rfl | ⟨language, rfl⟩ <;> trivial
      | asked _ call nothing begun => exact .same begun.sync
    | wrote c params _ call can begun => exact .same begun.sync
    | called c call _ call' unanswered step => exact .same step.sync
    | _ => exact .same rfl
  | request method params cancelled p _ p' step =>
    cases step with
    | asked c _ call current begun => exact .same begun.sync
    | called c call _ call' unanswered step => exact .same step.sync
    | _ => exact .same rfl

theorem SyncUse.cases (use : SyncUse s task s') :
    s'.sync = s.sync ∨ ∃ op, s'.sync = (s.sync.step op).2 := by
  cases use with
  | same sync => exact Or.inl sync
  | held op holds asks sync => exact Or.inr ⟨op, sync⟩
  | taken uri generation free sync => exact Or.inr ⟨_, sync⟩
  | configured c kind free place sync => exact Or.inr ⟨_, sync⟩
  | reset free sync => exact Or.inr ⟨_, sync⟩

theorem Moved.sync_cases (moved : Moved now h s h' s') :
    s'.sync = s.sync ∨ ∃ op, s'.sync = (s.sync.step op).2 := by
  cases moved with
  | task t task _ s₁ task' here step => exact step.sync_use.cases
  | served _ _ serves =>
    obtain ⟨c, connection, registry, handlers, passing, diagnostics, -, -, rfl⟩ := serves
    exact Or.inl rfl

end Session

namespace Scene

variable {setup : Setup} {moves : List Move} {d d' : Scene}

/-! ## Changes from outside -/

/-- The session stays as it is, but for its tasks: one of them is new, or the token of a request has
    fired. -/
structure Aside (s s' : Session) : Prop where
  rest : s' = { s with tasks := s'.tasks }
  grown : s.tasks.length ≤ s'.tasks.length
  place : ∀ (t : Nat) (task : Task), s'.tasks[t]? = some task →
    s.tasks[t]? = some task ∨ s.tasks[t]? = none ∧ Fresh task ∨
    ∃ method params cancelled p, s.tasks[t]? = some (.request method params cancelled p) ∧
      task = .request method params true p

/-- A task that is no request stays where it stands. -/
theorem Aside.kept {s s' : Session} {t : Nat} {task : Task} (aside : Aside s s')
    (here : s.tasks[t]? = some task) (other : ∀ method params cancelled p,
      task ≠ .request method params cancelled p := by simp) : s'.tasks[t]? = some task := by
  have inside := (List.getElem?_eq_some_iff.mp here).1
  have there := List.getElem?_eq_getElem (Nat.lt_of_lt_of_le inside aside.grown)
  rcases aside.place t _ there with same | ⟨none, -⟩ | ⟨method, params, cancelled, p, place, -⟩
  · rw [there, ← same, here]
  · simp [here] at none
  · exact absurd (Option.some.inj (here.symm.trans place)) (other method params cancelled p)

/-- Without a task, somebody serves the server, or something happens outside. -/
theorem Beside.cases (beside : Beside d d') :
    (d'.now = d.now ∧ Session.Serves d.host d.session d'.host d'.session) ∨
    (Aside d.session d'.session ∧ (d'.host = d.host ∨ Edited d.host d'.host)) := by
  -- what happens outside leaves all that the session has
  have same : Aside d.session d.session := ⟨rfl, Nat.le_refl _, fun _ _ here => Or.inl here⟩
  cases beside with
  | stayed | passed => exact Or.inr ⟨same, Or.inl rfl⟩
  | edited h edit => exact Or.inr ⟨same, Or.inr edit⟩
  | served h s serves => exact Or.inl ⟨rfl, serves⟩
  | spawned task fresh =>
    refine Or.inr ⟨⟨rfl, by simp [Session.spawn], fun t x here' => ?_⟩, Or.inl rfl⟩
    simp only [Session.spawn, List.getElem?_append] at here'
    split at here'
    · exact Or.inl here'
    · rename_i outside
      rw [List.getElem?_singleton] at here'
      split at here'
      · rw [Option.some.injEq] at here'
        subst here'
        exact Or.inr (Or.inl ⟨List.getElem?_eq_none (Nat.le_of_not_lt outside), fresh⟩)
      · simp at here'
  | fired i method params cancelled p place =>
    refine Or.inr ⟨⟨rfl, by simp [Session.setTask], fun t x here' => ?_⟩, Or.inl rfl⟩
    by_cases same : i = t
    · subst same
      obtain rfl : .request method params true p = x := by
        simpa [Session.setTask, (List.getElem?_eq_some_iff.mp place).1] using here'
      exact Or.inr (Or.inr ⟨method, params, cancelled, p, place, rfl⟩)
    · exact Or.inl (by simpa [Session.setTask, List.getElem?_set_ne same] using here')

/-- The session takes a step, or something happens outside. -/
theorem Change.cases (change : Change d d') :
    (d'.now = d.now ∧ Session.Moved d.now d.host d.session d'.host d'.session) ∨
    (Aside d.session d'.session ∧ (d'.host = d.host ∨ Edited d.host d'.host)) := by
  have apart : ∀ {d'}, Beside d d' →
      (d'.now = d.now ∧ Session.Moved d.now d.host d.session d'.host d'.session) ∨
      (Aside d.session d'.session ∧ (d'.host = d.host ∨ Edited d.host d'.host)) :=
    fun beside => beside.cases.imp_left fun ⟨now, serves⟩ => ⟨now, .served _ _ serves⟩
  cases change with
  | moved h s moved => exact Or.inl ⟨rfl, moved⟩
  | stayed => exact apart .stayed
  | spawned task fresh => exact apart (.spawned task fresh)
  | fired t method params cancelled p here => exact apart (.fired t method params cancelled p here)
  | edited h edit => exact apart (.edited h edit)
  | passed now => exact apart (.passed now)

/-- How a task has come to where it stands after a change: it stood there, it is new, the token of its
    request has fired, or it took a step. -/
inductive Came (d d' : Scene) (t : Nat) : Task → Prop where
  | stayed (task : Task) (here : d.session.tasks[t]? = some task) : Came d d' t task
  | called (task : Task) (absent : d.session.tasks[t]? = none) (fresh : Fresh task) : Came d d' t task
  | born (task : Task) (absent : d.session.tasks[t]? = none) (born : Session.Born task) : Came d d' t task
  | fired (method : String) (params : Option Json) (cancelled : Bool) (p : RequestPhase)
      (here : d.session.tasks[t]? = some (.request method params cancelled p)) :
      Came d d' t (.request method params true p)
  | stepped (old task : Task) (s : Session) (here : d.session.tasks[t]? = some old)
      (step : Session.TaskStep d.now d.host d.session t old d'.host s task)
      (result : d'.session = s.setTask t task) : Came d d' t task

theorem Change.came {t : Nat} {task : Task} (change : Change d d')
    (here' : d'.session.tasks[t]? = some task) : Came d d' t task := by
  rcases change.cases with ⟨-, moved⟩ | ⟨aside, -⟩
  · rcases moved.at here' with same | ⟨absent, born⟩ | ⟨old, s, here, step, result⟩
    · exact .stayed task same
    · exact .born task absent born
    · exact .stepped old task s here step result
  · rcases aside.place t task here' with
      same | ⟨absent, fresh⟩ | ⟨method, params, cancelled, p, here, rfl⟩
    · exact .stayed task same
    · exact .called task absent fresh
    · exact .fired method params cancelled p here

/-! ## Runs -/

theorem Change.covered (change : Change d d') (covered : d.session.sync.Covered) :
    d'.session.sync.Covered := by
  cases change with
  | stayed | spawned | fired | edited | passed => exact covered
  | moved h s step =>
    rcases step.sync_cases with same | ⟨op, same⟩
    · exact same ▸ covered
    · exact same ▸ (DocumentSync.step_transition covered op).covered covered

/-- Nothing is ever staged for a document that the server does not have open. -/
theorem covered_after (moves : List Move) :
    ((machine setup).after moves).session.sync.Covered := by
  refine (machine setup).run_induction (fun _ d => d.session.sync.Covered)
    (DocumentSync.covered_new _) (fun moves move covered => ?_) moves
  rw [Machine.after_concat]
  exact (step_change covered move).covered covered

theorem change_after (moves : List Move) (move : Move) :
    Change ((machine setup).after moves) ((machine setup).after (moves ++ [move])) := by
  rw [Machine.after_concat]
  exact step_change (covered_after moves) move

/-- A property of runs that every change keeps holds after every run. -/
theorem run_changes (inv : List Move → Scene → Prop) (start : inv [] (machine setup).start)
    (change : ∀ moves move d d', (machine setup).after moves = d →
      (machine setup).after (moves ++ [move]) = d' → Change d d' → inv moves d →
      inv (moves ++ [move]) d')
    (moves : List Move) : inv moves ((machine setup).after moves) := by
  exact (machine setup).run_induction inv start
    (fun moves move h => change moves move _ _ rfl rfl (change_after moves move) h) moves

end Scene

end LanguageClient
