import LanguageClient.Proofs.Session.Run
/-!
# Where tasks come from

A task never becomes another one: its steps, and the firing of a token, leave what it was begun for
(`Task.seed`).  So every task of a session was called for by a move, or it is a watch or a delivery, which
the steps of other tasks give rise to (`called_after`).
-/

namespace LanguageClient

/-- A task as it was when it began. -/
def Task.seed : Task → Task
  | .start _ => .start .locking
  | .stop _ => .stop .entering
  | .watch c _ => .watch c .waiting
  | .event e _ => .event e .locking
  | .delivery uri generation deadline _ => .delivery uri generation deadline .waiting
  | .query q _ => .query q .entering
  | .request method params _ _ => .request method params false .entering

theorem Session.TaskStep.seed {now : Nat} {h h' : Host} {s s' : Session} {t : Nat} {task task' : Task}
    (step : TaskStep now h s t task h' s' task') : task'.seed = task.seed := by
  cases step <;> rfl

namespace Scene

variable {setup : Setup} {d : Scene} {t : Nat} {task : Task} {move : Move}

/-- The task that a move calls for. -/
def Move.task? : Move → Option Task
  | .start => some (.start .locking)
  | .stop => some (.stop .entering)
  | .event e => some (.event e .locking)
  | .query q => some (.query q .entering)
  | .request method params cancelled => some (.request method params cancelled .entering)
  | _ => none

theorem step_of_task? (calls : move.task? = some task) : d.step move = d.spawn task := by
  cases move <;> simp only [Move.task?, Option.some.injEq, reduceCtorEq] at calls <;>
    exact congrArg d.spawn calls

/-- A task that is there after a move was called for by the move, has just been born, or was there
    before. -/
theorem seed_of_step (covered : d.session.sync.Covered)
    (here' : (d.step move).session.tasks[t]? = some task) :
    move.task?.map Task.seed = some task.seed ∨ Session.Born task ∨
      ∃ old, d.session.tasks[t]? = some old ∧ task.seed = old.seed := by
  cases calls : move.task? with
  | some called =>
    rw [step_of_task? calls] at here'
    simp only [spawn, Session.spawn, List.getElem?_append] at here'
    split at here'
    · exact Or.inr (Or.inr ⟨task, here', rfl⟩)
    · rw [List.getElem?_singleton] at here'
      split at here'
      · obtain rfl := Option.some.inj here'
        exact Or.inl rfl
      · simp at here'
  | none =>
    refine Or.inr ?_
    -- whoever serves the server leaves the tasks
    have touched : ∀ {result}, (d.touch result).session.tasks[t]? = some task →
        (∀ h s, result = some (h, s) → Session.Serves d.host d.session h s) →
        ∃ old, d.session.tasks[t]? = some old ∧ task.seed = old.seed := by
      intro result here' serves
      cases result with
      | none => exact ⟨task, here', rfl⟩
      | some result =>
        obtain ⟨c, connection, registry, handlers, passing, diagnostics, -, -, same⟩ :=
          serves result.1 result.2 rfl
        simp only [touch, same] at here'
        exact ⟨task, here', rfl⟩
    cases move with
    | start | stop | event | query | request => simp [Move.task?] at calls
    | act actor =>
      by_cases place : ∃ i, actor = .task i
      · obtain ⟨i, rfl⟩ := place
        rcases step_task covered i with same | ⟨old, h, s₁, task', here, step, same⟩
        · exact Or.inr ⟨task, same ▸ here', rfl⟩
        · rw [same] at here'
          rcases step.at here here' with ⟨rfl, rfl⟩ | ⟨-, kept | ⟨-, born⟩⟩
          · exact Or.inr ⟨old, here, step.seed⟩
          · exact Or.inr ⟨task, kept, rfl⟩
          · exact Or.inl born
      · exact Or.inr (touched here' fun h s step =>
          Session.serves_step (fun i same => place ⟨i, same⟩) step)
    | finishFiles c j =>
      refine Or.inr (touched here' fun h s step => ?_)
      obtain ⟨s₁, finished, same⟩ := Option.map_eq_some_iff.mp step
      obtain ⟨rfl, rfl⟩ := Prod.mk.inj same
      exact Session.serves_finishFiles finished
    | fire i =>
      refine Or.inr ?_
      simp only [step, Session.cancelRequest] at here'
      split at here'
      · rename_i method params cancelled p place
        by_cases same : i = t
        · subst same
          obtain rfl : .request method params true p = task := by
            simpa [Session.setTask, (List.getElem?_eq_some_iff.mp place).1] using here'
          exact ⟨_, place, rfl⟩
        · exact ⟨task, by simpa [Session.setTask, List.getElem?_set_ne same] using here', rfl⟩
      · exact ⟨task, here', rfl⟩
    | _ => exact Or.inr ⟨task, here', rfl⟩

/-- Every task that is in a session was called for by a move, or was born of the step of another one. -/
theorem called_after (moves : List Move) : ∀ (t : Nat) (task : Task),
    ((machine setup).after moves).session.tasks[t]? = some task →
      (∃ move ∈ moves, move.task?.map Task.seed = some task.seed) ∨ Session.Born task.seed := by
  refine (machine setup).run_induction (fun moves d => ∀ (t : Nat) (task : Task),
    d.session.tasks[t]? = some task →
      (∃ move ∈ moves, move.task?.map Task.seed = some task.seed) ∨ Session.Born task.seed) ?_ ?_ moves
  · simp [machine, Session.ofConfig]
  · intro moves move ih t task here'
    rw [Machine.after_concat] at here'
    rcases seed_of_step (covered_after moves) here' with calls | born | ⟨old, here, same⟩
    · exact Or.inl ⟨move, by simp, calls⟩
    · exact Or.inr (by cases born <;> constructor)
    · rw [same]
      exact (ih t old here).imp_left fun ⟨move, among, calls⟩ => ⟨move, by simp [among], calls⟩

end Scene

end LanguageClient
