import LanguageClient.Proofs.Connection.Outcome
import LanguageClient.Proofs.Connection.Turn
/-!
# A connection and those who close it

`Channel` is a dialogue with all who close its connection, any number of them and each at a place of
its own.  A close that finds no read loop ends the connection itself, so the read loop and all these
may set the flag and drain the tables in any order.

`Ending` says how far they can be: whoever drains or releases has set the flag before, and as long as
the flag is set and requests wait, somebody is about to drain.
-/

namespace LanguageClient

/-- A dialogue and the places of those who close its connection. -/
structure Channel where
  dialogue : Dialogue
  closers : List Closing := []

namespace Channel

abbrev connection (s : Channel) : Connection :=
  s.dialogue.connection

/-! ## Moves -/

inductive Move where
  /-- A move of the dialogue that nobody makes who closes the connection. -/
  | talk (move : Dialogue.Move) (other : move.isClosing = false)
  | readOn
  | close
  | closer (i : Nat)

/-- A move of the dialogue; who closes the connection begins to. -/
def Move.of (move : Dialogue.Move) : Move :=
  if other : move.isClosing = false then .talk move other else .close

def step (s : Channel) : Move → Channel
  | .talk move _ => { s with dialogue := s.dialogue.step move }
  | .readOn => { s with dialogue := s.dialogue.touch s.connection.readOn }
  | .close =>
    { dialogue := s.dialogue.step .beginClose, closers := s.closers ++ [.unwriting] }
  | .closer i =>
    match (s.closers[i]?).bind s.connection.stepClose with
    | some (connection, place) =>
      { dialogue := { s.dialogue with connection }, closers := s.closers.set i place }
    | none => s

def machine (name : String) : Machine Channel Move :=
  { start := { dialogue := (Dialogue.machine name).start }, step }

/-! ## What a move does -/

/-- What a move does to the connection and to those who close it. -/
inductive Change (s : Channel) : Channel → Prop where
  | turned (d : Dialogue) (turn : s.connection.Turn d.connection) :
      Change s { s with dialogue := d }
  | closing (d : Dialogue) (aside : s.connection.Aside d.connection) :
      Change s { dialogue := d, closers := s.closers ++ [.unwriting] }
  | closed (i : Nat) (place place' : Closing) (c : Connection) (here : s.closers[i]? = some place)
      (step : s.connection.stepClose place = some (c, place')) :
      Change s { dialogue := { s.dialogue with connection := c }, closers := s.closers.set i place' }

theorem step_change (s : Channel) (move : Move) : Change s (s.step move) := by
  cases move with
  | talk move other => exact .turned _ (s.dialogue.step_turn other)
  | readOn =>
    refine .turned _ ?_
    cases h : s.connection.readOn with
    | none => exact .aside (.refl _)
    | some c => exact Connection.turn_readOn h
  | close => exact .closing _ (.of_silent rfl rfl rfl rfl rfl rfl rfl)
  | closer i =>
    cases here : s.closers[i]? with
    | none => simpa [step, here] using Change.turned s.dialogue (.aside (.refl _))
    | some place =>
      cases stepped : s.connection.stepClose place with
      | none => simpa [step, here, stepped] using Change.turned s.dialogue (.aside (.refl _))
      | some result =>
        obtain ⟨c, place'⟩ := result
        simpa [step, here, stepped] using Change.closed i place place' c here stepped

/-- Every move does to the requests of the client what a move of a dialogue does. -/
theorem step_change_dialogue (s : Channel) (move : Move) :
    Dialogue.Change s.dialogue (s.step move).dialogue := by
  cases move with
  | talk move => exact s.dialogue.step_change move
  | readOn =>
    exact s.dialogue.change_touch fun c' h => .steady (Connection.steady_readOn h)
  | close => exact s.dialogue.step_change .beginClose
  | closer i =>
    simp only [step]
    split
    · rename_i c place stepped
      obtain ⟨place₀, -, stepped⟩ := Option.bind_eq_some_iff.mp stepped
      exact .touched c (Connection.stepClose_effect stepped)
    · exact .stayed

variable {name : String} {s s' : Channel}

theorem after_concat (moves : List Move) (move : Move) :
    (machine name).after (moves ++ [move]) = ((machine name).after moves).step move :=
  Machine.after_concat _ moves move

theorem correlated_after (moves : List Move) :
    Correlated ((machine name).after moves).connection ((machine name).after moves).dialogue.family := by
  refine (machine name).run_induction
    (fun _ s => Correlated s.connection s.dialogue.family) ?_ ?_ moves
  · exact @Dialogue.correlated_after name []
  · intro moves move h
    rw [after_concat]
    exact (step_change_dialogue _ move).correlated h

theorem name_after (moves : List Move) : ((machine name).after moves).connection.name = name := by
  refine (machine name).run_induction (fun _ s => s.connection.name = name) rfl ?_ moves
  intro moves move h
  rw [after_concat]
  exact (step_change_dialogue _ move).name_eq.trans h

/-! ## The end -/

/-- Somebody is about to tell all requests that wait that the connection has ended: the read loop, or
    one who closes a connection that nobody listens to. -/
def Drains (s : Channel) : Move → Prop
  | .talk .read _ => s.connection.readPhase = .draining
  | .closer i => s.closers[i]? = some .draining
  | _ => False

/-- How far those are who end the connection. -/
structure Ending (s : Channel) : Prop where
  silent : s.connection.listening = false → s.connection.readPhase = .idle
  reader : s.connection.readPhase.isEnding = true → s.connection.terminated = true
  closers : Closing.draining ∈ s.closers ∨ Closing.releasing ∈ s.closers → s.connection.terminated = true
  drained : s.connection.terminated = true →
    (∃ move, s.Drains move) ∨ s.connection.pending = []

namespace Ending

/-- Who drains does so when the connection has ended. -/
theorem terminated_of_drains (h : Ending s) {move : Move} (drains : s.Drains move) :
    s.connection.terminated = true := by
  cases move with
  | talk move =>
    cases move with
    | read => exact h.reader (by rw [show s.connection.readPhase = .draining from drains]; rfl)
    | _ => exact drains.elim
  | closer i => exact h.closers (Or.inl (List.mem_of_getElem? drains))
  | readOn | close => exact drains.elim

/-- A turn in which none of those takes part who close the connection; others may begin to. -/
theorem turn (h : Ending s) {d : Dialogue} (turn : s.connection.Turn d.connection)
    {more : List Closing} (new : ∀ p ∈ more, p = .unwriting) :
    Ending { dialogue := d, closers := s.closers ++ more } where
  silent := turn.idle h.silent
  reader := turn.terminated_of_isEnding h.reader
  closers := by
    intro among
    refine turn.terminated (h.closers ?_)
    have old : ∀ p, p ≠ .unwriting → p ∈ s.closers ++ more → p ∈ s.closers := fun p other among =>
      (List.mem_append.mp among).resolve_right fun among => other (new p among)
    exact among.imp (old _ (by simp)) (old _ (by simp))
  drained := by
    intro past
    rcases turn.draining_or h.silent past with place | ⟨before, drained⟩
    · exact Or.inl ⟨.talk .read rfl, place⟩
    · rcases h.drained before with ⟨move, drains⟩ | empty
      · cases move with
        | talk move =>
          cases move with
          | read => exact Or.inr (drained drains)
          | _ => exact drains.elim
        | closer i =>
          obtain ⟨short, -⟩ := List.getElem?_eq_some_iff.mp drains
          exact Or.inl ⟨.closer i, by simpa [Drains, List.getElem?_append_left short] using drains⟩
        | readOn | close => exact drains.elim
      · refine Or.inr (List.eq_nil_iff_forall_not_mem.mpr fun k among => ?_)
        simpa [empty] using turn.mem_pending before among

/-- Who is about to drain stays so while somebody else takes a step. -/
theorem drained_of_other (h : Ending s) {i : Nat} {place place' : Closing} {c : Connection}
    (here : s.closers[i]? = some place) (other : place ≠ .draining)
    (terminated : c.terminated = s.connection.terminated)
    (readPhase : c.readPhase = s.connection.readPhase) (pending : c.pending = s.connection.pending)
    (past : c.terminated = true) :
    (∃ move, Drains
      { dialogue := { s.dialogue with connection := c }, closers := s.closers.set i place' } move) ∨
      c.pending = [] := by
  rcases h.drained (terminated ▸ past) with ⟨move, drains⟩ | empty
  · refine Or.inl ⟨move, ?_⟩
    cases move with
    | talk move =>
      cases move with
      | read => exact readPhase.trans drains
      | _ => exact drains.elim
    | closer j =>
      have apart : i ≠ j := by
        rintro rfl
        exact other (Option.some.inj (here.symm.trans drains))
      exact (List.getElem?_set_ne apart).trans drains
    | readOn | close => exact drains.elim
  · exact Or.inr (pending.trans empty)

theorem closed (h : Ending s) {i : Nat} {place place' : Closing} {c : Connection}
    (here : s.closers[i]? = some place) (step : s.connection.stepClose place = some (c, place')) :
    Ending { dialogue := { s.dialogue with connection := c }, closers := s.closers.set i place' } := by
  have others : ∀ {p}, p ∈ s.closers.set i place' → p = place' ∨ p ∈ s.closers :=
    fun among => (List.mem_or_eq_of_mem_set among).symm
  cases place with
  | unwriting =>
    rcases Connection.stepClose_unwriting step with ⟨-, rfl, rfl⟩ | ⟨-, rfl, rfl⟩
    · refine ⟨h.silent, h.reader, fun among => h.closers ?_, fun past => ?_⟩
      · exact among.imp (fun m => (others m).resolve_left (by simp))
          fun m => (others m).resolve_left (by simp)
      · exact h.drained_of_other here (by simp) rfl rfl rfl past
    · obtain ⟨short, -⟩ := List.getElem?_eq_some_iff.mp here
      refine ⟨h.silent, fun _ => rfl, fun _ => rfl, fun _ => Or.inl ⟨.closer i, ?_⟩⟩
      simp [Drains, short]
  | draining =>
    obtain ⟨rfl, rfl⟩ := Prod.mk.inj (Option.some.inj step)
    have past := h.closers (Or.inl (List.mem_of_getElem? here))
    exact ⟨h.silent, h.reader, fun _ => past, fun _ => Or.inr rfl⟩
  | releasing =>
    obtain ⟨rfl, rfl⟩ := Prod.mk.inj (Option.some.inj step)
    have past := h.closers (Or.inr (List.mem_of_getElem? here))
    rw [Connection.release_eq]
    exact ⟨h.silent, h.reader, fun _ => past, h.drained_of_other here (by simp) rfl rfl rfl⟩
  | ended => simp [Connection.stepClose] at step

theorem change (h : Ending s) (change : Change s s') : Ending s' := by
  cases change with
  | turned d turn =>
    have none : ∀ p ∈ ([] : List Closing), p = .unwriting := by simp
    simpa using h.turn turn none
  | closing d aside => exact h.turn (.aside aside) (by simp)
  | closed i place place' c here step => exact h.closed here step

end Ending

theorem ending_after (moves : List Move) : Ending ((machine name).after moves) := by
  refine (machine name).run_induction (fun _ s => Ending s) ?_ ?_ moves
  · constructor <;> simp [machine, Dialogue.machine, connection, ReadPhase.isEnding]
  · intro moves move h
    rw [after_concat]
    exact h.change (step_change _ move)

/-! ## After the end -/

/-- A step of one who closes a connection: it sets the flag at most, and tells at most the requests
    that wait. -/
theorem stepClose_ending {c c' : Connection} {place place' : Closing}
    (h : c.stepClose place = some (c', place')) :
    (c.terminated = true → c'.terminated = true) ∧ ∀ k ∈ c'.pending, k ∈ c.pending := by
  cases place with
  | unwriting =>
    rcases Connection.stepClose_unwriting h with ⟨-, rfl, -⟩ | ⟨-, rfl, -⟩
    · exact ⟨id, fun _ => id⟩
    · exact ⟨fun _ => rfl, fun _ => id⟩
  | draining =>
    obtain ⟨rfl, rfl⟩ := Prod.mk.inj (Option.some.inj h)
    exact ⟨id, by simp⟩
  | releasing =>
    obtain ⟨rfl, rfl⟩ := Prod.mk.inj (Option.some.inj h)
    rw [Connection.release_eq]
    exact ⟨id, fun _ => id⟩
  | ended => simp [Connection.stepClose] at h

/-- Who closes a connection leaves the read loop where it is and writes nothing; the jobs and their
    table change only when they are released. -/
theorem stepClose_serving {c c' : Connection} {place place' : Closing}
    (h : c.stepClose place = some (c', place')) :
    c'.readPhase = c.readPhase ∧ c'.answers = c.answers ∧
      (c'.jobs = c.jobs ∧ c'.incoming = c.incoming ∨ place = .releasing ∧ c' = c.release) := by
  cases place with
  | unwriting =>
    rcases Connection.stepClose_unwriting h with ⟨-, rfl, -⟩ | ⟨-, rfl, -⟩
    · exact ⟨rfl, rfl, Or.inl ⟨rfl, rfl⟩⟩
    · exact ⟨rfl, rfl, Or.inl ⟨rfl, rfl⟩⟩
  | draining =>
    obtain ⟨rfl, rfl⟩ := Prod.mk.inj (Option.some.inj h)
    exact ⟨rfl, rfl, Or.inl ⟨rfl, rfl⟩⟩
  | releasing =>
    obtain ⟨rfl, rfl⟩ := Prod.mk.inj (Option.some.inj h)
    exact ⟨by rw [Connection.release_eq], by rw [Connection.release_eq]; rfl, Or.inr ⟨rfl, rfl⟩⟩
  | ended => simp [Connection.stepClose] at h

/-- Every job after a move is new, or one of those before. -/
theorem Change.jobAt (change : Change s s') {j : Nat} {job' : Job}
    (here' : s'.connection.jobs[j]? = some job') : s.connection.JobAt j job' := by
  cases change with
  | turned d turn => exact turn.jobAt here'
  | closing d aside => exact (Connection.Turn.aside aside).jobAt here'
  | closed i place place' c here step =>
    rcases (stepClose_serving step).2.2 with ⟨jobs, -⟩ | ⟨-, rfl⟩
    · exact Or.inr ⟨job', jobs ▸ here', rfl, .stays⟩
    · rw [Connection.release_eq] at here'
      exact .of_mapIdx here'

/-- The end of a connection is for ever. -/
theorem Change.terminated (change : Change s s') (past : s.connection.terminated = true) :
    s'.connection.terminated = true := by
  cases change with
  | turned d turn => exact turn.terminated past
  | closing d aside => exact aside.terminated.trans past
  | closed i place place' c here step => exact (stepClose_ending step).1 past

/-- Nobody enters the table of requests after the end. -/
theorem Change.mem_pending (change : Change s s') (past : s.connection.terminated = true) {k : Nat}
    (among : k ∈ s'.connection.pending) : k ∈ s.connection.pending := by
  cases change with
  | turned d turn => exact turn.mem_pending past among
  | closing d aside => exact aside.pending past k among
  | closed i place place' c here step => exact (stepClose_ending step).2 k among

theorem terminated_from (moves : List Move)
    (past : ((machine name).after moves).connection.terminated = true) (more : List Move) :
    ((machine name).after (moves ++ more)).connection.terminated = true := by
  refine (machine name).run_induction_from moves (fun _ s => s.connection.terminated = true) past
    (fun more move h => ?_) more
  rw [after_concat]
  exact (step_change _ move).terminated h

/-- Who drains tells every request in the table, and empties it. -/
theorem Drains.step {move : Move} (drains : s.Drains move) :
    (s.step move).dialogue.calls = s.dialogue.calls ∧
      (s.step move).connection.terminated = s.connection.terminated ∧
      (s.step move).connection.pending = [] ∧
      (s.step move).connection.replies = s.connection.drain.replies := by
  cases move with
  | talk move =>
    cases move with
    | read =>
      have place : s.dialogue.connection.readPhase = .draining := drains
      simp [Channel.step, Dialogue.step, Dialogue.touch, Connection.stepRead, place, connection,
        Connection.drain]
    | _ => exact drains.elim
  | closer i =>
    have here : s.closers[i]? = some .draining := drains
    simp [Channel.step, here, Connection.stepClose, connection, Connection.drain]
  | readOn | close => exact drains.elim

end Channel

end LanguageClient
