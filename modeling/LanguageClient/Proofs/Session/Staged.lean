import LanguageClient.Proofs.Session.Run
import LanguageClient.Proofs.Sync.LastEdit
/-!
# Staged changes and their deliveries

A change of a whole text that is accepted is staged, and a task is born to deliver it
(`TaskStep.staged_cases`).  From then on, as long as the change waits, there is a delivery that holds
its generation and will come for it (`delivered_after`): the delivery gives up only when its generation
has lapsed or is not the one that waits, and neither is so of a staged change.
-/

namespace LanguageClient

/-- A delivery has not come for its change yet. -/
def DeliveryPhase.Pending : DeliveryPhase → Prop
  | .waiting | .locking => True
  | _ => False

instance (p : DeliveryPhase) : Decidable p.Pending := by
  unfold DeliveryPhase.Pending
  split <;> infer_instance

/-- A change, as it is staged. -/
def DocumentChange.stagedAs (change : DocumentChange) (generation : Nat) : StagedChange :=
  { version := change.version, text := change.text, generation }

/-- What an accepted change gives back. -/
theorem DocumentSync.change_of_step {s s' : DocumentSync} {c : DocumentChange} {a : ChangeAction}
    (told : s.step (.change c) = (.changed a, s')) : s.change c = .ok (a, s') := by
  cases answer : s.change c with
  | error e => simp [step, answer] at told
  | ok result =>
    obtain ⟨rfl, rfl⟩ := by simpa [step, answer] using told
    rfl

namespace Session

variable {now : Nat} {h h' : Host} {s s' : Session} {t i : Nat} {task task' : Task}

/-! ## Accepting a change -/

/-- The next step of an event accepts a change, to be told as a whole text. -/
structure Accepts (s : Session) (t : Nat) (change : DocumentChange) (generation : Nat) : Prop where
  here : s.tasks[t]? = some (.event (.changed change) .looking)
  used : s.current ≠ none
  staged : ∃ sync, s.sync.change change = .ok (.staged generation, sync)

/-- A change that is staged after a step was staged before, or the step has accepted it and given
    birth to its delivery. -/
theorem TaskStep.staged_cases (step : TaskStep now h s t task h' s' task')
    (here : s.tasks[t]? = some task) (covered : s.sync.Covered) {uri : String}
    {change : StagedChange} (there : s'.sync.staged.get? uri = some change) :
    s.sync.staged.get? uri = some change ∨ ∃ c : DocumentChange,
      s.Accepts t c change.generation ∧ c.uri = uri ∧ change = c.stagedAs change.generation ∧
      s'.tasks = s.tasks ++
        [.delivery uri change.generation (now + s.options.syncDelay) .waiting] := by
  -- the only operation that stages something is the change of an event
  have effect : ∀ op, s'.sync = (s.sync.step op).2 →
      s.sync.staged.get? uri = some change ∨ ∃ c : DocumentChange, c.uri = uri ∧
        change = c.stagedAs change.generation ∧ op = .change c ∧
        (s.sync.step op).1 = .changed (.staged change.generation) := by
    intro op sync
    have effect := DocumentSync.step_transition covered op
    rw [← sync] at effect
    refine (effect.staged_cases there).imp_right fun ⟨c, about, staged, same⟩ => ?_
    obtain ⟨rfl, answer⟩ := SyncEvent.mk.inj same
    exact ⟨c, about, by rw [staged]; rfl, rfl, answer⟩
  have other : ∀ op, s'.sync = (s.sync.step op).2 → (∀ c, op ≠ .change c) →
      s.sync.staged.get? uri = some change := fun op sync other =>
    (effect op sync).resolve_right fun ⟨c, _, _, same, _⟩ => other c same
  cases step.sync_use with
  | same sync => exact Or.inl (sync ▸ there)
  | taken _ _ _ sync | configured _ _ _ _ sync | reset _ sync => exact Or.inl (other _ sync (by simp))
  | held op holds asks sync =>
    by_cases changing : ∃ c, op = .change c
    · obtain ⟨c, rfl⟩ := changing
      obtain rfl : task = .event (.changed c) .looking := asks
      cases step with
      | event _ _ _ _ step =>
        cases step with
        | staged _ c' generation sync current told =>
          refine (effect (.change c) (by rw [told]; rfl)).imp_right fun ⟨c', about, staged, same, answer⟩ => ?_
          obtain rfl := SyncOp.change.inj same
          obtain rfl : generation = change.generation := by simpa [told] using answer
          refine ⟨c, ⟨here, by simp [current], _, DocumentSync.change_of_step told⟩, about, staged, ?_⟩
          rw [← about]
          rfl
        | sent _ c' params sync current told =>
          refine (effect (.change c) (by rw [told])).imp_right fun ⟨c', about, staged, same, answer⟩ => ?_
          simp [told] at answer
        | flushed _ c' _ params sync place told =>
          exact Or.inl (other (.flush (DocumentEvent.changed c).uri) (by rw [told]) (by simp))
        | _ => exact Or.inl there
    · exact Or.inl (other _ sync fun c same => changing ⟨c, same⟩)

/-! ## The delivery of a staged change -/

/-- Somebody will come for the change that waits for a document. -/
def Delivers (s : Session) (uri : String) (generation : Nat) : Prop :=
  generation ∉ s.sync.lapsed ∧ ∃ (i deadline : Nat) (p : DeliveryPhase),
    s.tasks[i]? = some (.delivery uri generation deadline p) ∧ p.Pending

/-- Somebody will come for every change that waits. -/
def Delivered (s : Session) : Prop :=
  ∀ uri change, s.sync.staged.get? uri = some change → s.Delivers uri change.generation

/-- A delivery that will come for a change goes on to do so, as long as the change waits. -/
theorem DeliveryStep.pending {uri : String} {change : StagedChange} {deadline : Nat}
    {p p' : DeliveryPhase} (step : DeliveryStep now s t uri change.generation deadline p s' p')
    (pending : p.Pending) (covered : s.sync.Covered) (kept : change.generation ∉ s.sync.lapsed)
    (before : s.sync.staged.get? uri = some change) (after : s'.sync.staged.get? uri = some change) :
    p'.Pending := by
  -- whoever takes the change finds it, and then it does not wait any more
  have found : (s.sync.takeStaged uri change.generation).1 =
      some (DocumentSync.didChange uri change.version [.full change.text]) :=
    (DocumentSync.takeStaged_eq_some_iff covered).mpr ⟨change, before, rfl, rfl⟩
  cases step with
  | lapsed lapsed => exact absurd lapsed kept
  | due => exact trivial
  | missed free missed => simp [DocumentSync.step, found] at missed
  | lost params sync free idle taken => simp [DocumentSync.staged_of_taken covered taken] at after
  | taken params sync free running taken =>
    simp [lockSync, DocumentSync.staged_of_taken covered taken] at after
  | _ => exact pending.elim

theorem Moved.delivered (moved : Moved now h s h' s') (covered : s.sync.Covered)
    (fresh : ∀ uri change, s'.sync.staged.get? uri = some change →
      change.generation ∉ s'.sync.lapsed)
    (delivered : s.Delivered) : s'.Delivered := by
  cases moved with
  | served _ _ serves =>
    obtain ⟨c, connection, registry, handlers, passing, diagnostics, -, -, rfl⟩ := serves
    exact delivered
  | task t task _ s₁ task' here step =>
    intro uri change there
    refine ⟨fresh uri change there, ?_⟩
    rcases step.staged_cases here covered there with before | ⟨c, -, -, -, more⟩
    · obtain ⟨kept, i, deadline, p, here', pending⟩ := delivered uri change before
      by_cases same : t = i
      · subst same
        obtain rfl := Option.some.inj (here.symm.trans here')
        have self := step.self here
        cases step with
        | delivery _ _ _ _ _ p' step =>
          exact ⟨t, deadline, p', self, step.pending pending covered kept before there⟩
      · exact ⟨i, deadline, p, step.other (Ne.symm same) here', pending⟩
    · have inside : t < s.tasks.length := (List.getElem?_eq_some_iff.mp here).1
      refine ⟨s.tasks.length, now + s.options.syncDelay, .waiting, ?_, trivial⟩
      rw [setTask, List.getElem?_set_ne (Nat.ne_of_lt inside), more, List.getElem?_concat_length]

end Session

namespace Scene

variable {setup : Setup}

/-- The bookkeeping of a session has come about by operations on an empty one, so its generations are
    in order. -/
theorem tokens_after (moves : List Move) :
    ∃ history, DocumentSync.TokensAfter history ((machine setup).after moves).session.sync := by
  refine run_changes (fun _ d => ∃ history, DocumentSync.TokensAfter history d.session.sync)
    ⟨[], Tokens.nil⟩ ?_ moves
  rintro moves move d d' rfl rfl change ⟨history, tokens⟩
  rcases change.cases with ⟨-, moved⟩ | ⟨aside, -⟩
  · rcases moved.sync_cases with same | ⟨op, same⟩
    · exact ⟨history, same ▸ tokens⟩
    · exact ⟨_, same ▸ (DocumentSync.step_transition (covered_after moves) op).tokensAfter tokens⟩
  · exact ⟨history, by rw [aside.rest]; exact tokens⟩

/-- A change that waits has not lapsed. -/
theorem staged_not_lapsed (moves : List Move) {uri : String} {change : StagedChange}
    (there : ((machine setup).after moves).session.sync.staged.get? uri = some change) :
    change.generation ∉ ((machine setup).after moves).session.sync.lapsed := by
  obtain ⟨history, tokens⟩ := @tokens_after setup moves
  exact tokens.not_lapsed there

/-- **Every staged change is delivered.**  Somebody will come for every change that waits. -/
theorem delivered_after (moves : List Move) : ((machine setup).after moves).session.Delivered := by
  refine run_changes (fun _ d => d.session.Delivered) ?_ ?_ moves
  · intro uri change there
    simp [machine, Session.ofConfig, DocumentSync.new] at there
  · rintro moves move d d' rfl rfl change delivered
    rcases change.cases with ⟨-, moved⟩ | ⟨aside, -⟩
    · exact moved.delivered (covered_after moves)
        (fun _ _ => staged_not_lapsed (moves ++ [move])) delivered
    · intro uri change there
      rw [aside.rest] at there
      obtain ⟨kept, i, deadline, p, here, pending⟩ := delivered uri change there
      exact ⟨by rw [aside.rest]; exact kept, i, deadline, p, aside.kept here, pending⟩

end Scene

end LanguageClient
