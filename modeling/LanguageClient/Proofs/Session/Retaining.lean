import LanguageClient.Proofs.Session.Registering
import LanguageClient.Proofs.Session.Window
/-!
# What a server wants stays

A session keeps what its server wants in two places: the capabilities that came with the handshake, and
the registry.  Once the session has begun to run, and while no handler of a message takes a step, both
stay as they are, until a teardown takes the connection out of use and then takes them away
(`Session.Retains`, `retains_step`).
-/

namespace LanguageClient

theorem Task.detached_of_clearsRegistry {task : Task} (clears : task.clearsRegistry = true) :
    task.Detached := by
  unfold Task.clearsRegistry at clears
  split at clears
  · obtain rfl := beq_iff_eq.mp clears
    exact Teardown.noConfusion
  · trivial
  · obtain rfl := beq_iff_eq.mp clears
    exact Teardown.noConfusion
  · cases clears

namespace Session

variable {now : Nat} {h h' : Host} {s s' s'' : Session} {t c : Nat} {task task' : Task}

/-! ## What becomes of the capabilities -/

theorem TeardownStep.capabilities_cases {p p' : Teardown} (step : TeardownStep s p s' p') :
    s'.capabilities = s.capabilities ∨ p ≠ .detaching ∧ s'.capabilities = none := by
  cases step with
  | forgot => exact Or.inr ⟨Teardown.noConfusion, rfl⟩
  | _ => exact Or.inl rfl

theorem Called.capabilities {call call' : Call} (step : Called now s c call s' call') :
    s'.capabilities = s.capabilities := by
  obtain ⟨connection, rfl⟩ := step.eq_setConnection
  rfl

/-- A start that has made the session running gives up its capabilities only when the connection is out
    of use. -/
theorem StartStep.capabilities_cases {p p' : StartPhase} (step : StartStep now h s t p h' s' p')
    (past : p.Past c) : s'.capabilities = s.capabilities ∨
      (Task.start p).Detached ∧ s'.capabilities = none := by
  cases step with
  | listed c' _ _ next | announced c' params rest _ _ can next =>
    cases next <;> exact Or.inl rfl
  | tore e down _ down' step | failed e down _ step | failedQuietly e down _ step
  | failedLate e down _ step => exact step.capabilities_cases
  | retried c' attempt _ _ call place =>
    rcases place with ⟨failure, rfl⟩ | ⟨failure, deadline, rfl⟩ <;> exact past.elim
  | recorded | published | called | answered | concluded => exact past.elim
  | _ => exact Or.inl rfl

theorem TaskStep.capabilities_cases (step : TaskStep now h s t task h' s' task')
    (past : ∀ p, task = .start p → p.Past c) :
    s'.capabilities = s.capabilities ∨ task.Detached ∧ s'.capabilities = none := by
  cases step with
  | start p _ _ p' step => exact step.capabilities_cases (past p rfl)
  | stop p _ p' step =>
    cases step with
    | asked c _ call free begun => exact Or.inl begun.capabilities
    | called c call _ call' unanswered step => exact Or.inl step.capabilities
    | tore down _ down' step | stopped down _ step =>
      exact step.capabilities_cases.imp_right fun gone => ⟨trivial, gone.2⟩
    | _ => exact Or.inl rfl
  | watch c p _ _ p' step =>
    cases step with
    | tore down _ down' step => exact step.capabilities_cases
    | _ => exact Or.inl rfl
  | event e p _ p' step =>
    cases step with
    | ahead e c params _ _ can next =>
      rcases next with ⟨uri, reason, -, -, rfl⟩ | ⟨uri, text, -, -, rfl⟩ | ⟨-, rfl⟩ <;>
        exact Or.inl rfl
    | _ => exact Or.inl rfl
  | delivery uri generation deadline p _ p' step => cases step <;> exact Or.inl rfl
  | query q p _ p' step =>
    cases step with
    | ahead c _ _ _ place next =>
      cases next with
      | flushed => exact Or.inl rfl
      | asked _ call nothing begun => exact Or.inl begun.capabilities
    | wrote c params _ call can begun => exact Or.inl begun.capabilities
    | called c call _ call' unanswered step => exact Or.inl step.capabilities
    | _ => exact Or.inl rfl
  | request method params cancelled p _ p' step =>
    cases step with
    | asked c _ call current begun => exact Or.inl begun.capabilities
    | called c call _ call' unanswered step => exact Or.inl step.capabilities
    | _ => exact Or.inl rfl

/-! ## What a server wants stays -/

/-- What a server wants stays as it is, but when its connection goes out of use. -/
structure Retains (s s' : Session) : Prop where
  registry : s'.registry = s.registry ∨ s'.registry = {} ∧ s'.current = none
  capabilities : s'.capabilities = s.capabilities ∨ s'.capabilities = none ∧ s'.current = none
  current : s.current = none → s'.current = none

theorem Retains.refl (s : Session) : Retains s s :=
  ⟨Or.inl rfl, Or.inl rfl, id⟩

theorem Retains.trans (first : Retains s s') (next : Retains s' s'') : Retains s s'' := by
  constructor
  -- Once a connection is out of use it stays so, which is why what is taken away never comes back.
  · rcases next.registry with same | gone
    · rcases first.registry with before | ⟨empty, unused⟩
      · exact Or.inl (same.trans before)
      · exact Or.inr ⟨same.trans empty, next.current unused⟩
    · exact Or.inr gone
  · rcases next.capabilities with same | gone
    · rcases first.capabilities with before | ⟨none, unused⟩
      · exact Or.inl (same.trans before)
      · exact Or.inr ⟨same.trans none, next.current unused⟩
    · exact Or.inr gone
  · exact next.current ∘ first.current

/-- As long as a connection is in use, nothing has changed. -/
theorem Retains.of_used (retains : Retains s s') (used : s'.current = some c) :
    s'.registry = s.registry ∧ s'.capabilities = s.capabilities := by
  constructor
  · refine retains.registry.resolve_right ?_
    rintro ⟨-, unused⟩
    simp [used] at unused
  · refine retains.capabilities.resolve_right ?_
    rintro ⟨-, unused⟩
    simp [used] at unused

theorem Retains.unadvertised {test : ServerCapabilities → Bool} (retains : Retains s s')
    (unwanted : s.advertises test = false) : s'.advertises test = false := by
  rcases retains.capabilities with same | ⟨none, -⟩
  · rwa [advertises, same]
  · rw [advertises, none]
    rfl

end Session

namespace Scene

variable {setup : Setup} {moves : List Move} {move : Move} {i c : Nat} {kind : SyncKind}

/-- Without a handler of a message the registry changes only when a teardown clears it. -/
theorem registry_of_other (other : ∀ c j, move ≠ .act (.handler c j)) :
    ((machine setup).after (moves ++ [move])).session.registry =
        ((machine setup).after moves).session.registry ∨
      ∃ (t : Nat) (task : Task), ((machine setup).after moves).session.tasks[t]? = some task ∧
        task.clearsRegistry = true ∧ ((machine setup).after (moves ++ [move])).session.registry = {} := by
  have turns := step_turns (covered_after moves) (worksBy_after moves).files
    (@accounts_after setup moves).1 move
  have registry := turns.registry
  rw [Machine.after_concat, step_machine, registry]
  -- What is wished for changes nothing.
  have wished : ∀ c changes r, RegistryEvent.replay (Session.wishedAll c changes) r = r := by
    intro c changes r
    induction changes with
    | nil => rfl
    | cons change changes ih => exact ih
  cases move with
  | act actor =>
    simp only [registryEvents]
    split
    · cases actor with
      | reader c => exact Or.inl (wished c _ _)
      | readOn c => exact Or.inl (wished c _ _)
      | job c j => exact Or.inl rfl
      | handler c j => exact absurd rfl (other c j)
      | task t =>
        simp only [Session.registryEvents]
        split
        · next clears =>
          obtain ⟨task, here, clears⟩ := (Option.any_eq_true _ _).mp clears
          exact Or.inr ⟨t, task, here, clears, rfl⟩
        · exact Or.inl rfl
    · exact Or.inl rfl
  | _ => exact Or.inl rfl

/-- The capabilities of a session that has begun to run change only when its connection is out of use. -/
theorem capabilities_of_ran (ran : RanOn setup moves i c kind) :
    ((machine setup).after (moves ++ [move])).session.capabilities =
        ((machine setup).after moves).session.capabilities ∨
      ((machine setup).after moves).session.current = none ∧
        ((machine setup).after (moves ++ [move])).session.capabilities = none := by
  have change := @change_after setup moves move
  have on := ran.on
  generalize (machine setup).after moves = d at *
  generalize (machine setup).after (moves ++ [move]) = d' at *
  rcases change.cases with ⟨-, moved⟩ | ⟨aside, -⟩
  · generalize d'.host = h' at moved
    generalize d'.session = s' at *
    cases moved with
    | served _ _ serves =>
      obtain ⟨c, connection, registry, handlers, passing, diagnostics, -, -, rfl⟩ := serves
      exact Or.inl rfl
    | task t task _ s₁ task' here step =>
      have past : ∀ p, task = .start p → p.Past c := by
        rintro p rfl
        exact on.past t p here
      exact (step.capabilities_cases past).imp_right fun gone =>
        ⟨on.detached t task here gone.1, gone.2⟩
  · rw [aside.rest]
    exact Or.inl rfl

/-- While no handler of a message takes a step, what the server wants stays as it is, but when the
    connection goes out of use. -/
theorem retains_step (ran : RanOn setup moves i c kind) (other : ∀ c j, move ≠ .act (.handler c j)) :
    ((machine setup).after moves).session.Retains
      ((machine setup).after (moves ++ [move])).session := by
  have unused : ((machine setup).after moves).session.current = none →
      ((machine setup).after (moves ++ [move])).session.current = none :=
    (change_after moves move).unused ran.on
  constructor
  · rcases registry_of_other other with same | ⟨t, task, here, clears, empty⟩
    · exact Or.inl same
    · exact Or.inr ⟨empty, unused (ran.on.detached t task here
        (Task.detached_of_clearsRegistry clears))⟩
  · exact (capabilities_of_ran ran).imp_right fun gone => ⟨gone.2, unused gone.1⟩
  · exact unused

end Scene

end LanguageClient
