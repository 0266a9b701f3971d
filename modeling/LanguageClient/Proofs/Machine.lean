import Mathlib.Data.List.Induction
/-!
# Machines and their runs

A machine has a state and makes one move after another; a move that cannot be made now leaves the
state as it is.  Tasks that work beside one another are one machine, whose moves are the steps of
each of them: a list of moves is one way in which they may take turns, and what holds after every
list of moves holds whatever the turns.

`Once` and `Always` speak of the past of a run, so that a statement about the present can tell how it
came about; `remembered` keeps a note of the past, and `recorded` what each move leaves behind.
-/

namespace LanguageClient

/-- Something with a state `σ` that makes moves `μ`. -/
structure Machine (σ μ : Type) where
  start : σ
  step : σ → μ → σ

namespace Machine

variable {σ μ : Type} (m : Machine σ μ)

/-- Where some moves lead. -/
def after (moves : List μ) : σ :=
  moves.foldl m.step m.start

/-- Something was so at a moment of a run: at its start, after one of its moves, or at its end. -/
def Once (moves : List μ) (p : σ → Prop) : Prop :=
  ∃ before later, moves = before ++ later ∧ p (m.after before)

/-- Something was so at every moment of a run. -/
def Always (moves : List μ) (p : σ → Prop) : Prop :=
  ∀ before later, moves = before ++ later → p (m.after before)

/-- What somebody remembers of a run who keeps a note and looks at each move. -/
def remembered {α : Type} (note : σ → μ → α → α) (first : α) (moves : List μ) : α :=
  (moves.foldl (fun (s, last) move => (m.step s move, note s move last)) (m.start, first)).2

/-- What the moves of a run leave behind, each according to the state that it finds. -/
def recorded {α : Type} (leaves : σ → μ → List α) (moves : List μ) : List α :=
  (moves.foldl (fun (s, past) move => (m.step s move, past ++ leaves s move)) (m.start, [])).2

@[simp] theorem after_nil : m.after [] = m.start := rfl

@[simp] theorem after_concat (moves : List μ) (move : μ) :
    m.after (moves ++ [move]) = m.step (m.after moves) move := by
  simp [after]

/-- What holds at the start, and goes on to hold with every move, holds after every run.  The
    invariant may speak of the moves that were made. -/
theorem run_induction (inv : List μ → σ → Prop) (start : inv [] m.start)
    (step : ∀ moves move, inv moves (m.after moves) →
      inv (moves ++ [move]) (m.after (moves ++ [move])))
    (moves : List μ) : inv moves (m.after moves) := by
  induction moves using List.reverseRecOn with
  | nil => exact start
  | append_singleton moves move ih => exact step moves move ih

/-- What holds at one moment, and goes on to hold with every move, holds ever after. -/
theorem run_induction_from (moves : List μ) (inv : List μ → σ → Prop) (start : inv [] (m.after moves))
    (step : ∀ more move, inv more (m.after (moves ++ more)) →
      inv (more ++ [move]) (m.after (moves ++ more ++ [move])))
    (more : List μ) : inv more (m.after (moves ++ more)) := by
  induction more using List.reverseRecOn with
  | nil => simpa using start
  | append_singleton more move ih => simpa [← List.append_assoc] using step more move ih

variable {m} {moves : List μ} {p q : σ → Prop}

theorem Once.now (h : p (m.after moves)) : m.Once moves p :=
  ⟨moves, [], by simp, h⟩

/-- What was so once has been so ever after. -/
theorem Once.append (h : m.Once moves p) (more : List μ) : m.Once (moves ++ more) p := by
  obtain ⟨before, later, rfl, held⟩ := h
  exact ⟨before, later ++ more, by simp, held⟩

theorem Once.imp (h : m.Once moves p) (weaken : ∀ s, p s → q s) : m.Once moves q := by
  obtain ⟨before, later, split, held⟩ := h
  exact ⟨before, later, split, weaken _ held⟩

theorem once_nil : m.Once [] p ↔ p m.start := by
  constructor
  · rintro ⟨before, later, split, held⟩
    obtain ⟨rfl, rfl⟩ := List.nil_eq_append_iff.mp split
    exact held
  · exact fun h => ⟨[], [], rfl, h⟩

/-- A moment of a run is its last one, or a moment before the last move. -/
theorem once_concat {move : μ} :
    m.Once (moves ++ [move]) p ↔ m.Once moves p ∨ p (m.after (moves ++ [move])) := by
  constructor
  · rintro ⟨before, later, split, held⟩
    rcases List.eq_nil_or_concat later with rfl | ⟨later, last, rfl⟩
    · rw [List.append_nil] at split
      rw [← split] at held
      exact Or.inr held
    · rw [List.concat_eq_append, ← List.append_assoc] at split
      obtain ⟨rfl, -⟩ := List.append_inj' split rfl
      exact Or.inl ⟨before, later, rfl, held⟩
  · rintro (h | h)
    · exact h.append [move]
    · exact Once.now h

theorem Always.now (h : m.Always moves p) : p (m.after moves) :=
  h moves [] (by simp)

theorem always_concat {move : μ} :
    m.Always (moves ++ [move]) p ↔ m.Always moves p ∧ p (m.after (moves ++ [move])) := by
  constructor
  · exact fun h => ⟨fun before later split => h before (later ++ [move]) (by simp [split]), h.now⟩
  · rintro ⟨earlier, now⟩ before later split
    rcases List.eq_nil_or_concat later with rfl | ⟨later, last, rfl⟩
    · rw [List.append_nil] at split
      exact split ▸ now
    · rw [List.concat_eq_append, ← List.append_assoc] at split
      exact earlier before later (List.append_inj' split rfl).1

/-- The moments of a run are those after its first moves. -/
theorem always_iff : m.Always moves p ↔ ∀ n ≤ moves.length, p (m.after (moves.take n)) := by
  constructor
  · exact fun h n _ => h (moves.take n) (moves.drop n) (by simp)
  · rintro h before later rfl
    simpa using h before.length (by simp)

section Remembered

variable {α : Type}

@[simp] theorem remembered_nil (note : σ → μ → α → α) (first : α) :
    m.remembered note first [] = first := rfl

@[simp] theorem remembered_concat (note : σ → μ → α → α) (first : α) (moves : List μ) (move : μ) :
    m.remembered note first (moves ++ [move]) =
      note (m.after moves) move (m.remembered note first moves) := by
  have kept : ∀ (moves : List μ) (s : σ) (last : α),
      (moves.foldl (fun (s, last) move => (m.step s move, note s move last)) (s, last)).1 =
        moves.foldl m.step s := by
    intro moves
    induction moves with
    | nil => exact fun _ _ => rfl
    | cons move moves ih => exact fun s last => ih _ _
  simp [remembered, after, kept]

@[simp] theorem recorded_nil (leaves : σ → μ → List α) : m.recorded leaves [] = [] := rfl

@[simp] theorem recorded_concat (leaves : σ → μ → List α) (moves : List μ) (move : μ) :
    m.recorded leaves (moves ++ [move]) =
      m.recorded leaves moves ++ leaves (m.after moves) move :=
  m.remembered_concat (fun s move past => past ++ leaves s move) [] moves move

end Remembered

end Machine

end LanguageClient
