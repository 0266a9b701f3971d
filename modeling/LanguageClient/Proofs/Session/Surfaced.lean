import LanguageClient.Proofs.Session.States
/-!
# What the user sees of a start that fails

The user sees the failures of a start in two ways: asked whether to try again, for a reason, or told
that the server failed to start.  `shownBy` keeps all that a start made the user see, `declinedBy` the
failures that it gave up at when it had asked.

A start asks for every failure that the server wants to be tried again, and notes that it has asked;
the note stays for the rest of the start.  So the failure that makes the session start-failed is told
of when the start has never asked, and was asked about when the user did not want another try; but
one that follows another try the user never sees (`start_failures_surface`).
-/

namespace LanguageClient

/-- The user sees it. -/
def HostEvent.isShown : HostEvent → Bool
  | .prompt .. | .showError _ => true
  | _ => false

/-- The failure at which a start gives up where it has asked the user. -/
def StartPhase.declined : StartPhase → StartPhase → List ClientError
  | .prompting _ _ failure _ _, .failing .. => [failure]
  | _, _ => []

@[simp] theorem StartPhase.declined_self (p : StartPhase) : p.declined p = [] := by
  cases p <;> rfl

/-- The user is asked whether to try again. -/
def askedFor (reason : String) : HostEvent :=
  .prompt reason [Session.retryAction]

/-- The user is told that a server failed to start. -/
def toldOf (server : String) (e : ClientError) : HostEvent :=
  .showError (server ++ " language server failed to start: " ++ e.message)

/-- The last reason that the user was asked for is that of an error. -/
def LastReason (reasons : List String) (e : ClientError) : Prop :=
  ∃ earlier reason, reasons = earlier ++ [reason] ∧ e = .handshake reason true

namespace Session

variable {now : Nat} {h h' : Host} {s s' : Session} {t i : Nat} {task task' : Task}

/-! ## The note -/

/-- Only a start that has the lock on starting, or takes it, changes the note. -/
theorem StartStep.reported_cases {p p' : StartPhase} (step : StartStep now h s t p h' s' p') :
    s'.reported = s.reported ∨ p.UnderWay ∨ s.starter = none := by
  cases step with
  | begun free ready => exact Or.inr (Or.inr free)
  | passed | refused => exact Or.inl rfl
  | retried c attempt _ _ call place begun => exact Or.inl begun.startKept.reported
  | gaveUp | unwritten => exact Or.inl rfl
  | _ => exact Or.inr (Or.inl trivial)

/-- While a start is under way, nobody else changes the note. -/
theorem TaskStep.reported_other (guarded : s.Guarded) {p : StartPhase}
    (there : s.tasks[i]? = some (.start p)) (on : p.UnderWay) (here : s.tasks[t]? = some task)
    (other : i ≠ t) (step : TaskStep now h s t task h' s' task') : s'.reported = s.reported := by
  by_cases start : ∃ q, task = .start q
  · obtain ⟨q, rfl⟩ := start
    cases step with
    | start _ _ _ q' step =>
      rcases step.reported_cases with same | under | free
      · exact same
      · exact absurd (guarded.unique there on here under) other
      · simp [guarded i p there on] at free
  · exact (step.startKept fun q same => start ⟨q, same⟩).reported

theorem StartStep.name {p p' : StartPhase} (step : StartStep now h s t p h' s' p') :
    s'.name = s.name := by
  cases step with
  | published c _ call begun | retried c attempt _ _ call place begun => exact begun.startKept.name
  | called c attempt call _ call' unanswered step => exact step.startKept.name
  | concluded c attempt call result _ _ _ ended next => cases next <;> rfl
  | answered c attempt call s₁ call' result _ _ _ unanswered step ended next =>
    cases next <;> exact step.startKept.name
  | listed c _ _ next | announced c params rest _ _ can next => cases next <;> rfl
  | tore e t _ t' step => exact step.startKept.name
  | failed e t s₁ step | failedQuietly e t s₁ step | failedLate e t s₁ step =>
    exact step.startKept.name
  | _ => rfl

theorem TaskStep.name (step : TaskStep now h s t task h' s' task') : s'.name = s.name := by
  by_cases start : ∃ p, task = .start p
  · obtain ⟨p, rfl⟩ := start
    cases step with
    | start _ _ _ p' step => exact step.name
  · exact (step.startKept fun p same => start ⟨p, same⟩).name

theorem Moved.name (moved : Moved now h s h' s') : s'.name = s.name := by
  cases moved with
  | task t task _ s₁ task' here step => exact step.name
  | served _ _ serves =>
    obtain ⟨c, connection, registry, handlers, passing, diagnostics, -, -, rfl⟩ := serves
    rfl

/-! ## The account -/

/-- The user was asked for these reasons and has seen nothing else, and the note says whether there
    are any. -/
structure Asked (s : Session) (reasons : List String) (shown : List HostEvent) : Prop where
  shown : shown = reasons.map askedFor
  note : s.reported = true ↔ reasons ≠ []

/-- What the user has seen of a start, and what it has given up at, by where it stands. -/
def Accounted (s : Session) (shown : List HostEvent) (declined : List ClientError) :
    StartPhase → Prop
  | .locking => shown = [] ∧ declined = []
  | .prompting _ _ failure _ _ =>
    declined = [] ∧ ∃ reasons, s.Asked reasons shown ∧ LastReason reasons failure
  | .failing e _ =>
    ∃ reasons, s.Asked reasons shown ∧ (declined = [] ∨ declined = [e] ∧ LastReason reasons e)
  | .reporting _ => shown = [] ∧ declined = []
  | .ended _ => True
  | _ => declined = [] ∧ ∃ reasons, s.Asked reasons shown

variable {reasons : List String} {shown : List HostEvent} {declined : List ClientError}

theorem Asked.congr (asked : s.Asked reasons shown) (same : s'.reported = s.reported) :
    s'.Asked reasons shown :=
  ⟨asked.shown, by rw [same]; exact asked.note⟩

theorem Asked.ask (asked : s.Asked reasons shown) (reason : String)
    (noted : s'.reported = true) : s'.Asked (reasons ++ [reason]) (shown ++ [askedFor reason]) :=
  ⟨by simp [asked.shown], by simp [noted]⟩

theorem Asked.shown_eq_nil (asked : s.Asked reasons shown) (unnoted : s.reported = false) :
    shown = [] := by
  have none : reasons = [] := by simpa [unnoted] using asked.note
  simp [asked.shown, none]

/-- What the user has seen by a change of the host. -/
def seen (h h' : Host) : List HostEvent :=
  (h'.asked.drop h.asked.length).filter (·.isShown)

@[simp] theorem seen_same (h : Host) : seen h h = [] := by
  simp [seen]

@[simp] theorem seen_askDecision (h : Host) (server : String) (attempt : Nat) (e : ClientError) :
    seen h (h.askDecision server attempt e) = [] := by
  simp [seen, Host.askDecision, HostEvent.isShown]

@[simp] theorem seen_showError (h : Host) (server : String) (e : ClientError) :
    seen h (h.showError (server ++ " language server failed to start: " ++ e.message)) =
      [toldOf server e] := by
  simp [seen, Host.showError, HostEvent.isShown, toldOf]

theorem asked_prompt (h : Host) (reason : String) :
    (h.prompt reason [retryAction]).2.asked = h.asked ++ [askedFor reason] := by
  rw [h.prompt_eq]
  rfl

@[simp] theorem seen_prompt (h : Host) (reason : String) :
    seen h (h.prompt reason [retryAction]).2 = [askedFor reason] := by
  simp [seen, asked_prompt, HostEvent.isShown, askedFor]

theorem Asked.still (asked : s.Asked reasons shown) (same : s'.reported = s.reported) :
    s'.Asked reasons (shown ++ seen h h) := by
  rw [seen_same, List.append_nil]
  exact asked.congr same

/-- The account is kept where the note is, which matters only while the start is under way. -/
theorem Accounted.congr {p : StartPhase} (account : s.Accounted shown declined p)
    (same : p.UnderWay → s'.reported = s.reported) : s'.Accounted shown declined p := by
  cases p with
  | locking | reporting | ended => exact account
  | failing e down =>
    obtain ⟨reasons, asked, gaveUp⟩ := account
    exact ⟨reasons, asked.congr (same trivial), gaveUp⟩
  | prompting =>
    obtain ⟨nothing, reasons, asked, last⟩ := account
    exact ⟨nothing, reasons, asked.congr (same trivial), last⟩
  | _ =>
    obtain ⟨nothing, reasons, asked⟩ := account
    exact ⟨nothing, reasons, asked.congr (same trivial)⟩

theorem Concluded.accounted {c attempt : Nat} {result : Except ClientError Json} {p : StartPhase}
    (next : Concluded now h s c attempt result h' s' p) (nothing : declined = [])
    (asked : s.Asked reasons shown) : s'.Accounted (shown ++ seen h h') declined p := by
  cases next with
  | succeeded r decoded => exact ⟨nothing, reasons, asked.still rfl⟩
  | failed e decoded => exact ⟨reasons, asked.still rfl, Or.inl nothing⟩
  | decided e script decoded live policy =>
    exact ⟨nothing, reasons, by rw [seen_askDecision, List.append_nil]; exact asked.congr rfl⟩
  | prompted e reason decoded live nobody retry =>
    exact ⟨nothing, _, by rw [seen_prompt]; exact asked.ask reason rfl, reasons, reason, rfl, retry⟩

theorem Announced.accounted {c : Nat} {docs : List Document} {p : StartPhase}
    (next : Announced s c docs s' p) (nothing : declined = []) (asked : s.Asked reasons shown) :
    s'.Accounted shown declined p := by
  cases next with
  | finished => trivial
  | next => exact ⟨nothing, reasons, asked.congr rfl⟩

theorem StartStep.accounted {p p' : StartPhase} (step : StartStep now h s t p h' s' p')
    (account : s.Accounted shown declined p) :
    s'.Accounted (shown ++ seen h h') (declined ++ p.declined p') p' := by
  cases step with
  | passed | refused | greetedOnly | failedQuietly | failedLate | reported => trivial
  -- a start begins with nothing shown and nobody asked
  | begun free ready =>
    obtain ⟨rfl, rfl⟩ := account
    exact ⟨rfl, [], ⟨by simp, by simp⟩⟩
  | connected outcome rest _ next =>
    obtain ⟨rfl, reasons, asked⟩ := account
    rcases next with rfl | rfl | ⟨reason, rfl⟩
    · exact ⟨rfl, reasons, asked.still rfl⟩
    · exact ⟨rfl, reasons, asked.still rfl⟩
    · exact ⟨reasons, asked.still rfl, Or.inl rfl⟩
  | held | recorded | ran | greeted =>
    obtain ⟨rfl, reasons, asked⟩ := account
    exact ⟨rfl, reasons, asked.still rfl⟩
  | published c _ call begun =>
    obtain ⟨rfl, reasons, asked⟩ := account
    exact ⟨rfl, reasons, asked.still begun.startKept.reported⟩
  | called c attempt call _ call' unanswered step waits =>
    obtain ⟨rfl, reasons, asked⟩ := account
    exact ⟨rfl, reasons, asked.still step.startKept.reported⟩
  | concluded c attempt call result _ _ _ ended next =>
    obtain ⟨rfl, reasons, asked⟩ := account
    exact next.accounted rfl asked
  | answered c attempt call s₁ call' result _ _ _ unanswered step ended next =>
    obtain ⟨rfl, reasons, asked⟩ := account
    exact next.accounted rfl (asked.congr step.startKept.reported)
  | retried c attempt _ _ call place begun =>
    rcases place with ⟨failure, rfl⟩ | ⟨failure, deadline, rfl⟩
    · obtain ⟨rfl, reasons, asked⟩ := account
      exact ⟨rfl, reasons, asked.still begun.startKept.reported⟩
    -- the user asked for another attempt, which adds a reason and no refusal
    · obtain ⟨rfl, reasons, asked, -⟩ := account
      exact ⟨rfl, reasons, asked.still begun.startKept.reported⟩
  | gaveUp c attempt _ failure place =>
    rcases place with ⟨reply, rfl⟩ | ⟨deadline, reply, rfl⟩
    · obtain ⟨rfl, reasons, asked⟩ := account
      exact ⟨reasons, asked.still rfl, Or.inl rfl⟩
    · obtain ⟨rfl, reasons, asked, last⟩ := account
      exact ⟨reasons, asked.still rfl, Or.inr ⟨rfl, last⟩⟩
  | overtaken c kind free other =>
    obtain ⟨rfl, reasons, asked⟩ := account
    exact ⟨reasons, asked.still rfl, Or.inl rfl⟩
  | listed c _ _ next =>
    obtain ⟨rfl, reasons, asked⟩ := account
    exact next.accounted rfl (asked.still rfl)
  | announced c params rest _ _ can next =>
    obtain ⟨rfl, reasons, asked⟩ := account
    exact next.accounted rfl (asked.still rfl)
  | unwritten c _ e place cannot =>
    rcases place with ⟨kind, rfl⟩ | ⟨params, rest, rfl⟩
    all_goals
      obtain ⟨rfl, reasons, asked⟩ := account
      exact ⟨reasons, asked.still rfl, Or.inl rfl⟩
  | tore e t _ t' step more =>
    obtain ⟨reasons, asked, gaveUp⟩ := account
    exact ⟨reasons, asked.still step.startKept.reported, by simpa [StartPhase.declined] using gaveUp⟩
  | failed e t s₁ step starting unreported =>
    obtain ⟨reasons, asked, gaveUp⟩ := account
    -- nothing is noted, so the user was never asked
    have unnoted : s.reported = false := step.startKept.reported ▸ unreported
    have none : reasons = [] := by simpa [unnoted] using asked.note
    refine ⟨by simp [asked.shown_eq_nil unnoted], ?_⟩
    rcases gaveUp with rfl | ⟨-, earlier, reason, split, -⟩
    · rfl
    · simp [none] at split

end Session

namespace Scene

variable {setup : Setup} {moves : List Move} {d d' : Scene} {t : Nat}

/-! ## Along a run -/

/-- What the user sees by a move of a start. -/
def shows (t : Nat) (d : Scene) (move : Move) : List HostEvent :=
  match move with
  | .act (.task i) => if i = t then Session.seen d.host (d.step move).host else []
  | _ => []

/-- What a start gives up at by a move, where it has asked the user. -/
def declines (t : Nat) (d : Scene) (move : Move) : List ClientError :=
  match d.session.tasks[t]?, (d.step move).session.tasks[t]? with
  | some (.start p), some (.start p') => p.declined p'
  | _, _ => []

/-- All that the user has seen of a start. -/
def shownBy (setup : Setup) (t : Nat) (moves : List Move) : List HostEvent :=
  (machine setup).recorded (shows t) moves

/-- The failures that a start has given up at where it had asked the user. -/
def declinedBy (setup : Setup) (t : Nat) (moves : List Move) : List ClientError :=
  (machine setup).recorded (declines t) moves

/-- What is seen of a step of a start. -/
theorem shows_step {h : Host} {s₁ : Session} {p p' : StartPhase}
    (here : d.session.tasks[t]? = some (.start p))
    (step : Session.StartStep d.now d.host d.session t p h s₁ p')
    (same : d.step (.act (.task t)) = { d with host := h, session := s₁.setTask t (.start p') }) :
    (d.step (.act (.task t))).session.tasks[t]? = some (.start p') ∧
      shows t d (.act (.task t)) = Session.seen d.host h ∧
      declines t d (.act (.task t)) = p.declined p' := by
  have after : (d.step (.act (.task t))).session.tasks[t]? = some (.start p') := by
    rw [same]
    exact (Session.TaskStep.start p h s₁ p' step).self here
  exact ⟨after, by simp [shows, same], by simp [declines, here, after]⟩

/-- A move is a step of a start, or leaves the start as it is and shows nothing of it. -/
theorem step_start (covered : d.session.sync.Covered) (guarded : d.session.Guarded)
    {p : StartPhase} (here : d.session.tasks[t]? = some (.start p)) (move : Move) :
    (move = .act (.task t) ∧ ∃ h s₁ p', Session.StartStep d.now d.host d.session t p h s₁ p' ∧
      d.step move = { d with host := h, session := s₁.setTask t (.start p') } ∧
      (d.step move).session.tasks[t]? = some (.start p') ∧
      shows t d move = Session.seen d.host h ∧ declines t d move = p.declined p') ∨
    ((d.step move).session.tasks[t]? = some (.start p) ∧ shows t d move = [] ∧
      declines t d move = [] ∧
      (p.UnderWay → (d.step move).session.reported = d.session.reported)) := by
  have stays : (d.step move).session.tasks[t]? = some (.start p) → declines t d move = [] :=
    fun there => by simp [declines, here, there]
  by_cases task : ∃ i, move = .act (.task i)
  · obtain ⟨i, rfl⟩ := task
    rcases step_task covered i with same | ⟨task, h, s₁, task', there, step, same⟩
    · refine Or.inr ⟨by rw [same]; exact here, by simp [shows, same], ?_, fun _ => by rw [same]⟩
      exact stays (by rw [same]; exact here)
    -- the step is the start's own, or another task's
    · by_cases mine : i = t
      · subst mine
        obtain rfl := Option.some.inj (there.symm.trans here)
        cases step with
        | start _ _ _ p' step =>
          exact Or.inl ⟨rfl, h, s₁, p', step, same, shows_step here step same⟩
      · have after : (d.step (.act (.task i))).session.tasks[t]? = some (.start p) := by
          rw [same]
          exact step.other (Ne.symm mine) here
        refine Or.inr ⟨after, by simp [shows, mine], stays after, fun on => ?_⟩
        rw [same]
        have kept := step.reported_other guarded here on there (Ne.symm mine)
        exact kept
  · have unseen : shows t d move = [] := by
      unfold shows
      split
      · rename_i i
        exact absurd ⟨i, rfl⟩ task
      · rfl
    -- a move that is no task's step serves the server, or comes from outside
    rcases (step_beside fun i same => task ⟨i, same⟩).cases with ⟨-, serves⟩ | ⟨aside, -⟩
    · obtain ⟨c, connection, registry, handlers, passing, diagnostics, -, -, same⟩ := serves
      have after : (d.step move).session.tasks[t]? = some (.start p) := by
        rw [same]
        exact here
      exact Or.inr ⟨after, unseen, stays after, fun _ => by rw [same]; rfl⟩
    · have after := aside.kept here
      exact Or.inr ⟨after, unseen, stays after, fun _ => by rw [aside.rest]⟩

theorem name_after (moves : List Move) :
    ((machine setup).after moves).session.name = setup.server.name := by
  refine run_changes (fun _ d => d.session.name = setup.server.name) rfl ?_ moves
  intro moves move d d' before after change named
  rcases change.cases with ⟨-, moved⟩ | ⟨aside, -⟩
  · exact moved.name.trans named
  · rw [aside.rest]
    exact named

/-- The task of a start was a start before, or there was none. -/
theorem Change.start_before {p' : StartPhase} (change : Change d d')
    (here' : d'.session.tasks[t]? = some (.start p')) :
    (∃ p, d.session.tasks[t]? = some (.start p)) ∨ d.session.tasks[t]? = none ∧ p' = .locking := by
  cases change.came here' with
  | stayed _ here => exact Or.inl ⟨p', here⟩
  | called _ absent fresh =>
    cases fresh
    exact Or.inr ⟨absent, rfl⟩
  | born _ absent born => cases born
  | stepped _ _ s here step result =>
    generalize d'.host = h' at step
    cases step with
    | start q => exact Or.inl ⟨q, here⟩

theorem Change.none_before (change : Change d d') (absent : d'.session.tasks[t]? = none) :
    d.session.tasks[t]? = none := by
  rcases change.cases with ⟨-, moved⟩ | ⟨aside, -⟩
  · cases here : d.session.tasks[t]? with
    | none => rfl
    | some task =>
      rcases moved.kept here with same | ⟨s₁, task', -, -, same⟩ <;> simp [absent] at same
  · rw [List.getElem?_eq_none_iff] at absent ⊢
    exact aside.grown.trans absent

/-- Nothing is seen of a task before there is one. -/
theorem shows_of_none (covered : d.session.sync.Covered) (none : d.session.tasks[t]? = none)
    (move : Move) : shows t d move = [] ∧ declines t d move = [] := by
  refine ⟨?_, by simp [declines, none]⟩
  unfold shows
  split
  · rename_i i
    split
    · rename_i mine
      rcases step_task covered i with same | ⟨task, h, s₁, task', here, -⟩
      · simp [same]
      · simp [mine, none] at here
    · rfl
  · rfl

/-- **The account of a start** holds along every run. -/
theorem account_after (moves : List Move) (t : Nat) :
    (((machine setup).after moves).session.tasks[t]? = none →
      shownBy setup t moves = [] ∧ declinedBy setup t moves = []) ∧
    ∀ p, ((machine setup).after moves).session.tasks[t]? = some (.start p) →
      ((machine setup).after moves).session.Accounted (shownBy setup t moves)
        (declinedBy setup t moves) p := by
  refine (machine setup).run_induction (fun moves d =>
    (d.session.tasks[t]? = none → shownBy setup t moves = [] ∧ declinedBy setup t moves = []) ∧
    ∀ p, d.session.tasks[t]? = some (.start p) →
      d.session.Accounted (shownBy setup t moves) (declinedBy setup t moves) p) ?_ ?_ moves
  · simp [machine, Session.ofConfig, shownBy, declinedBy]
  · rintro moves move ⟨before, account⟩
    have covered := @covered_after setup moves
    have guarded := @guarded_after setup moves
    have change := step_change covered move
    simp only [shownBy, declinedBy, Machine.recorded_concat, Machine.after_concat, step_machine]
      at before account ⊢
    generalize (machine setup).after moves = d at *
    have unseen : d.session.tasks[t]? = none →
        (machine setup).recorded (shows t) moves ++ shows t d move = [] ∧
          (machine setup).recorded (declines t) moves ++ declines t d move = [] := by
      intro none
      obtain ⟨shown, declined⟩ := before none
      obtain ⟨shows, declines⟩ := shows_of_none covered none move
      simp [shown, declined, shows, declines]
    refine ⟨fun none' => unseen (change.none_before none'), fun p' here' => ?_⟩
    -- the start is there already, or it is just called
    rcases change.start_before here' with ⟨p, here⟩ | ⟨none, rfl⟩
    · rcases step_start covered guarded here move with
        ⟨-, h, s₁, q, step, same, after, shown, declined⟩ | ⟨after, shown, declined, kept⟩
      · obtain rfl := Task.start.inj (Option.some.inj (after.symm.trans here'))
        rw [shown, declined, same]
        exact (step.accounted (account p here)).congr fun _ => rfl
      · obtain rfl := Task.start.inj (Option.some.inj (after.symm.trans here'))
        rw [shown, declined, List.append_nil, List.append_nil]
        exact (account p here).congr kept
    · exact unseen none

/-! ## Giving up -/

/-- How a failure that made the session start-failed has come to the user's eyes, by where the start
    stands since: it is still to be told; it was told, and the user was never asked; or the user was
    asked.  In the end the user was asked about this failure and did not want another try, or wanted
    another try and has not seen of what came of it. -/
inductive Surfaced (server : String) (e : ClientError) :
    StartPhase → List HostEvent → List ClientError → Prop where
  | due : Surfaced server e (.reporting e) [] []
  | told : Surfaced server e (.ended (.error e)) [toldOf server e] []
  | declined (reasons : List String) (last : LastReason reasons e) :
      Surfaced server e (.ended (.error e)) (reasons.map askedFor) [e]
  | unseen (reasons : List String) (some : reasons ≠ []) :
      Surfaced server e (.ended (.error e)) (reasons.map askedFor) []

/-- A session that becomes start-failed does so by the step of a start that has failed. -/
theorem step_startFailed {move : Move} (covered : d.session.sync.Covered)
    (was : d.session.state ≠ .startFailed) (is : (d.step move).session.state = .startFailed) :
    ∃ t e down h s₁ p', move = .act (.task t) ∧
      d.session.tasks[t]? = some (.start (.failing e down)) ∧
      Session.StartStep d.now d.host d.session t (.failing e down) h s₁ p' ∧
      d.step move = { d with host := h, session := s₁.setTask t (.start p') } := by
  by_cases task : ∃ i, move = .act (.task i)
  · obtain ⟨i, rfl⟩ := task
    rcases step_task covered i with same | ⟨task, h, s₁, task', here, step, same⟩
    · exact absurd (same ▸ is) was
    · rw [same] at is
      rcases step.state_cases with kept | ⟨-, -, failed, -⟩
      · exact absurd (kept ▸ is) was
      · obtain ⟨e, down, rfl⟩ := failed is
        cases step with
        | start _ _ _ p' step => exact ⟨i, e, down, h, s₁, p', rfl, here, step, same⟩
  · rcases (step_beside fun i same => task ⟨i, same⟩).cases with ⟨-, serves⟩ | ⟨aside, -⟩
    · obtain ⟨c, connection, registry, handlers, passing, diagnostics, -, -, same⟩ := serves
      rw [same] at is
      exact absurd is was
    · rw [aside.rest] at is
      exact absurd is was

/-- The step by which a start makes the session start-failed. -/
theorem surfaced_of_failing {now : Nat} {h h' : Host} {s s' : Session} {e : ClientError}
    {down : Teardown} {p' : StartPhase} {shown : List HostEvent} {declined : List ClientError}
    (step : Session.StartStep now h s t (.failing e down) h' s' p')
    (account : s.Accounted shown declined (.failing e down)) (was : s.state ≠ .startFailed)
    (is : s'.state = .startFailed) (server : String) :
    h' = h ∧ Surfaced server e p' shown declined := by
  obtain ⟨reasons, asked, gaveUp⟩ := account
  have kept : ∀ {s₁ : Session} {down' : Teardown}, Session.TeardownStep s down s₁ down' →
      s₁.state ≠ .startFailed := fun step => step.state ▸ was
  cases step with
  | tore _ _ _ _ step => exact (kept step is).elim
  | failedLate _ _ s₁ step => exact (kept step is).elim
  | failed _ _ s₁ step starting unreported =>
    have unnoted : s.reported = false := step.startKept.reported ▸ unreported
    have none : reasons = [] := by simpa [unnoted] using asked.note
    rw [asked.shown_eq_nil unnoted]
    rcases gaveUp with rfl | ⟨-, earlier, reason, split, -⟩
    · exact ⟨rfl, .due⟩
    · simp [none] at split
  | failedQuietly _ _ s₁ step starting reported =>
    rw [asked.shown]
    rcases gaveUp with rfl | ⟨rfl, last⟩
    · exact ⟨rfl, .unseen reasons (asked.note.mp (step.startKept.reported ▸ reported))⟩
    · exact ⟨rfl, .declined reasons last⟩
  | retried _ _ _ _ _ place | gaveUp _ _ _ _ place | unwritten _ _ _ place => simp at place

/-- A start that has failed goes on to tell of it, if that is due, and to its end. -/
theorem Surfaced.step {server : String} {e : ClientError} {p : StartPhase} {shown : List HostEvent}
    {declined : List ClientError} (surfaced : Surfaced server e p shown declined) {now : Nat}
    {h h' : Host} {s s' : Session} {p' : StartPhase}
    (step : Session.StartStep now h s t p h' s' p') (named : s.name = server) :
    Surfaced server e p' (shown ++ Session.seen h h') (declined ++ p.declined p') ∧
      p' = .ended (.error e) := by
  cases surfaced with
  | due =>
    cases step with
    | reported e' =>
      rw [named, Session.seen_showError]
      exact ⟨.told, rfl⟩
    | retried _ _ _ _ _ place | gaveUp _ _ _ _ place | unwritten _ _ _ place => simp at place
  | told | declined | unseen =>
    cases step with
    | retried _ _ _ _ _ place | gaveUp _ _ _ _ place | unwritten _ _ _ place => simp at place

/-- The step that tells of a failure is never held up. -/
theorem step_reporting {e : ClientError}
    (here : d.session.tasks[t]? = some (.start (.reporting e))) :
    (d.step (.act (.task t))).session.tasks[t]? = some (.start (.ended (.error e))) := by
  have inside : t < d.session.unlockStart.tasks.length := (List.getElem?_eq_some_iff.mp here).1
  have stepped : ∃ h, d.session.stepTask d.now d.host t =
      some (h, d.session.unlockStart.setTask t (.start (.ended (.error e)))) := by
    unfold Session.stepTask
    rw [here]
    exact ⟨_, rfl⟩
  obtain ⟨h, stepped⟩ := stepped
  simp [step, Session.step, stepped, touch, Session.setTask, inside]

/-- What a failed start shows goes on to be so with every move. -/
theorem Surfaced.concat {e : ClientError} {p : StartPhase}
    (surfaced : Surfaced setup.server.name e p (shownBy setup t moves) (declinedBy setup t moves))
    (here : ((machine setup).after moves).session.tasks[t]? = some (.start p)) (move : Move) :
    ∃ p', ((machine setup).after (moves ++ [move])).session.tasks[t]? = some (.start p') ∧
      Surfaced setup.server.name e p' (shownBy setup t (moves ++ [move]))
        (declinedBy setup t (moves ++ [move])) ∧
      (move = .act (.task t) → p' = .ended (.error e)) := by
  simp only [shownBy, declinedBy, Machine.recorded_concat, Machine.after_concat, step_machine]
    at surfaced ⊢
  rcases step_start (covered_after moves) (guarded_after moves) here move with
    ⟨-, h, s₁, p', step, same, after, shown, declined⟩ | ⟨after, shown, declined, -⟩
  · rw [shown, declined]
    obtain ⟨surfaced', ended⟩ := surfaced.step step (name_after moves)
    exact ⟨p', after, surfaced', fun _ => ended⟩
  · rw [shown, declined, List.append_nil, List.append_nil]
    refine ⟨p, after, surfaced, ?_⟩
    rintro rfl
    generalize (machine setup).recorded (shows t) moves = shown at surfaced
    generalize (machine setup).recorded (declines t) moves = declined at surfaced
    cases surfaced with
    | due => simp [step_reporting here] at after
    | _ => rfl

/-- **What becomes of a failure that makes a session start-failed.**  However the starts, the server,
    the user and all others take turns: a session becomes start-failed by the step of a start that
    has taken down what there was after a failure.  From then on this start has told the user of the
    failure, or does so with its next step, if it has never asked the user anything; and otherwise it
    shows nothing more: the last question was about this failure, and the user did not want another
    try, or the failure followed another try that the user wanted, and stays unseen. -/
theorem start_failures_surface (setup : Setup) (moves : List Move) (move : Move)
    (was : ((machine setup).after moves).session.state ≠ .startFailed)
    (is : ((machine setup).after (moves ++ [move])).session.state = .startFailed) :
    ∃ t e down, move = .act (.task t) ∧
      ((machine setup).after moves).session.tasks[t]? = some (.start (.failing e down)) ∧
      ∀ more,
        (∃ p, ((machine setup).after (moves ++ [move] ++ more)).session.tasks[t]? =
            some (.start p) ∧
          Surfaced setup.server.name e p (shownBy setup t (moves ++ [move] ++ more))
            (declinedBy setup t (moves ++ [move] ++ more))) ∧
        ((machine setup).after (moves ++ [move] ++ more ++ [.act (.task t)])).session.tasks[t]? =
          some (.start (.ended (.error e))) := by
  rw [Machine.after_concat, step_machine] at is
  obtain ⟨t, e, down, h, s₁, p, rfl, here, step, same⟩ := step_startFailed (covered_after moves) was is
  have seen := shows_step here step same
  -- the moment of the failure
  have first : Surfaced setup.server.name e p (shownBy setup t (moves ++ [.act (.task t)]))
      (declinedBy setup t (moves ++ [.act (.task t)])) := by
    rw [same] at is
    obtain ⟨rfl, surfaced⟩ := surfaced_of_failing step ((account_after moves t).2 _ here) was is
      setup.server.name
    simpa [shownBy, declinedBy, seen, StartPhase.declined] using surfaced
  refine ⟨t, e, down, rfl, here, fun more => ?_⟩
  obtain ⟨p', there, surfaced⟩ := (machine setup).run_induction_from (moves ++ [.act (.task t)])
    (fun more d => ∃ p, d.session.tasks[t]? = some (.start p) ∧
      Surfaced setup.server.name e p (shownBy setup t (moves ++ [.act (.task t)] ++ more))
        (declinedBy setup t (moves ++ [.act (.task t)] ++ more)))
    ⟨p, by simpa using seen.1, by simpa using first⟩
    (fun more move ⟨p, there, surfaced⟩ => by
      obtain ⟨p', there', surfaced', -⟩ := surfaced.concat there move
      exact ⟨p', there', by simpa using surfaced'⟩) more
  obtain ⟨q, last, -, ended⟩ := surfaced.concat there (.act (.task t))
  exact ⟨⟨p', there, surfaced⟩, by rw [last, ended rfl]⟩

/-- The error with which a start has ended. -/
def startError? (d : Scene) (t : Nat) : Option ClientError :=
  match d.session.tasks[t]? with
  | some (.start (.ended (.error e))) => some e
  | _ => none

/-- A server, and a user who always wants another try. -/
def agreeing : Setup :=
  { host := { root := "/w", mode := .fixed (some Session.retryAction) }
    server := { name := "fake", transport := .process "fake-ls" [] } }

/-- The server refuses to be initialized. -/
def refused (id : UInt64) (reason : String) (retry : Bool) : List Move :=
  let error : ResponseError := { code := 1, message := reason, data := some (.obj [("retry", .bool retry)]) }
  [.feed 0 (Utf8.encodeString (Message.response (.failure (.number id) error)).frame),
    .act (.reader 0), .act (.reader 0)]

/-- The only start goes on. -/
def goesOn (n : Nat) : List Move :=
  List.replicate n (.act (.task 0))

/-- The server refuses, and does not want another try. -/
def refusing : List Move :=
  [.start] ++ goesOn 6 ++ refused 1 "fatal" false ++ goesOn 6

/-- The server refuses and wants another try, and refuses again. -/
def retrying : List Move :=
  [.start] ++ goesOn 6 ++ refused 1 "not ready" true ++ goesOn 4 ++ refused 2 "fatal" false ++ goesOn 6

/-- A failure without a question before it is told of. -/
theorem start_failures_surface_refusing :
    ((machine agreeing).after refusing).session.state ≠ .startFailed ∧
    ((machine agreeing).after (refusing ++ [.act (.task 0)])).session.state = .startFailed ∧
    (∃ (t : Nat) (e : ClientError) (p : StartPhase), Surfaced "fake" e p
      (shownBy agreeing t (refusing ++ [.act (.task 0)] ++ goesOn 1))
      (declinedBy agreeing t (refusing ++ [.act (.task 0)] ++ goesOn 1))) ∧
    ((machine agreeing).after (refusing ++ [.act (.task 0)] ++ goesOn 1)).host.asked =
      [toldOf "fake" (.handshake "fatal" false)] := by
  have was : ((machine agreeing).after refusing).session.state ≠ .startFailed := by decide +kernel
  have is : ((machine agreeing).after (refusing ++ [.act (.task 0)])).session.state = .startFailed := by
    decide +kernel
  obtain ⟨t, e, down, -, -, ever⟩ :=
    start_failures_surface agreeing refusing (.act (.task 0)) was is
  obtain ⟨⟨p, -, surfaced⟩, -⟩ := ever (goesOn 1)
  exact ⟨was, is, ⟨t, e, p, surfaced⟩, by decide +kernel⟩

/-- A failure after another try that the user wanted is never seen: the session is start-failed with
    it, and all that the user has seen is the question before. -/
theorem failure_after_retry_unseen :
    agreeing.options.policy = none ∧
    ((machine agreeing).after (retrying ++ [.act (.task 0)])).session.state = .startFailed ∧
    ((machine agreeing).after (retrying ++ [.act (.task 0)])).startError? 0 =
      some (.handshake "fatal" false) ∧
    ((machine agreeing).after (retrying ++ [.act (.task 0)])).host.asked = [askedFor "not ready"] := by
  decide +kernel

end Scene
end LanguageClient
