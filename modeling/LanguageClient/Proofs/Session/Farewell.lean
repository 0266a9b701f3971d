import LanguageClient.Proofs.Session.LifeCycle
import LanguageClient.Proofs.Session.Origin
import LanguageClient.Proofs.Session.Stage
/-!
# The last words to a server

A stop that finds the session running asks the server to shut down, waits for the outcome, and then tells
it to exit.  `Session.said` reads off a connection which of these words were said there, and `Task.unsaid`
off a task which it still has to say.  A step of a stop moves a word from the one to the other, or drops it
(`TaskStep.farewells`), and only one stop has anything to say.  So what was said and what is still to be
said make up `shutdown` and `exit` at most, once each and in this order (`Parting`).

That nobody else says a word of these rests on the methods that tasks call (`named_after`), and on what is
told of documents (`about_after`).
-/

namespace LanguageClient

/-- A word with which a client takes leave of a server. -/
inductive Farewell where
  | shutdown
  | exit
  deriving DecidableEq, Repr

def Farewell.all : List Farewell :=
  [shutdown, exit]

/-- The request `shutdown` and the notification `exit`. -/
def Message.farewell? : Message → Option Farewell
  | .request r => if r.method = "shutdown" then some .shutdown else none
  | .notification n => if n.method = "exit" then some .exit else none
  | .response _ => none

/-- What some messages say of a farewell, in order. -/
def farewells (messages : List Message) : List Farewell :=
  messages.filterMap (·.farewell?)

@[simp] theorem farewells_append (ms more : List Message) :
    farewells (ms ++ more) = farewells ms ++ farewells more := by
  simp [farewells]

@[simp] theorem farewells_cons (m : Message) (ms : List Message) :
    farewells (m :: ms) = m.farewell?.toList ++ farewells ms := by
  cases word : m.farewell? <;> simp [farewells, word]

@[simp] theorem farewells_responses (rs : List Response) : farewells (rs.map .response) = [] := by
  simp [farewells, Message.farewell?]

/-- When one message was written, one word was said. -/
theorem Wrote.farewells {may : Message → Prop} {sent sent' : List Message}
    (wrote : Wrote may sent sent') : farewells sent' = farewells sent ∨
      ∃ m w, may m ∧ m.farewell? = some w ∧ farewells sent' = farewells sent ++ [w] := by
  obtain ⟨first, answers, rfl, allowed⟩ := wrote
  cases first with
  | none => exact Or.inl (by simp)
  | some m =>
    cases word : m.farewell? with
    | none => exact Or.inl (by simp [word])
    | some w => exact Or.inr ⟨m, w, allowed m rfl, word, by simp [word]⟩

/-! ## What a task has to say -/

/-- The request of a call is not written yet. -/
def Call.isUnwritten (call : Call) : Bool :=
  match call.phase with
  | .entering | .admitted _ | .registered _ => true
  | _ => false

/-- What a stop still has to say to the server. -/
def StopPhase.unsaid : StopPhase → List Farewell
  | .detaching .running | .resetting .running _ => Farewell.all
  | .asking _ call => if call.isUnwritten then Farewell.all else [.exit]
  | .exiting _ => [.exit]
  | _ => []

/-- What a task still has to say to the server. -/
def Task.unsaid : Task → List Farewell
  | .stop p => p.unsaid
  | _ => []

/-- A task may say a word on a connection with its next step. -/
inductive Task.Says (c : Nat) : Task → Farewell → Prop where
  | shutdown (call : Call) (id : Nat) (place : call.phase = .registered id) :
      Says c (.stop (.asking c call)) .shutdown
  | exit : Says c (.stop (.exiting c)) .exit

theorem StopPhase.unsaid_sublist (p : StopPhase) : p.unsaid.Sublist Farewell.all := by
  unfold unsaid
  split
  · exact .refl _
  · exact .refl _
  · split
    · exact .refl _
    · exact .cons _ (.refl _)
  · exact .cons _ (.refl _)
  · exact List.nil_sublist _

namespace Task

variable {task : Task} {c : Nat} {w : Farewell}

/-- Whoever has something to say has moved the state of the session. -/
theorem halting_of_unsaid (more : task.unsaid ≠ []) : task.Halting := by
  cases task with
  | stop p =>
    cases p with
    | entering | ended => exact absurd rfl more
    | _ => trivial
  | _ => exact absurd rfl more

theorem Says.unsaid_ne_nil (turn : task.Says c w) : task.unsaid ≠ [] := by
  cases turn with
  | shutdown call id place => simp [unsaid, StopPhase.unsaid, Call.isUnwritten, place, Farewell.all]
  | exit => simp [unsaid, StopPhase.unsaid]

end Task

namespace Call.Step

variable {now : Nat} {c c' : Connection} {call : Call} {phase : CallPhase}

theorem isUnwritten (step : Step now c call c' phase)
    (unwritten : { call with phase }.isUnwritten = true) : call.isUnwritten = true := by
  cases step <;> simp_all [Call.isUnwritten]

theorem isUnwritten_of_registered {id : Nat} (step : Step now c call c' phase)
    (place : call.phase = .registered id) : { call with phase }.isUnwritten = false := by
  cases step <;> simp_all [Call.isUnwritten]

end Call.Step

namespace Session

variable {now : Nat} {h h' : Host} {s s' : Session} {t c : Nat} {task task' : Task} {w : Farewell}

/-- A stop begins in a session that nobody has halted, or it drops what it does not say any more. -/
theorem StopStep.unsaid {p p' : StopPhase} (step : StopStep now s p s' p') :
    (p = .entering ∧ p' = .detaching s.state ∧ (s.state ≠ .stopping ∧ s.state ≠ .stopped) ∧
      s'.state = .stopping) ∨
    (p'.unsaid.Sublist p.unsaid ∧
      ∀ c w, (Task.stop p).Says c w → (w :: p'.unsaid).Sublist p.unsaid) := by
  cases step with
  | begun live => exact Or.inl ⟨rfl, rfl, live, rfl⟩
  | detached previous =>
    refine Or.inr ⟨?_, by rintro _ _ ⟨⟩⟩
    cases previous <;> exact .refl _
  | asked c _ call free begun => exact Or.inr ⟨StopPhase.unsaid_sublist _, by rintro _ _ ⟨⟩⟩
  | answered c call past =>
    refine Or.inr ⟨?_, ?_⟩
    · cases unwritten : call.isUnwritten <;> simp [StopPhase.unsaid, unwritten, Farewell.all]
    · rintro _ _ ⟨_, id, place⟩
      simp [StopPhase.unsaid, Call.isUnwritten, place, Farewell.all]
  | called c call _ call' unanswered step =>
    obtain ⟨connection, phase, step⟩ := step
    refine Or.inr ⟨?_, ?_⟩
    · cases unwritten : call.isUnwritten with
      | true => simpa [StopPhase.unsaid, unwritten] using StopPhase.unsaid_sublist _
      | false =>
        -- a call that is written cannot become unwritten
        have written : { call with phase }.isUnwritten = false := by
          by_contra unwritten'
          simp [step.isUnwritten (by simpa using unwritten')] at unwritten
        split <;> simp [StopPhase.unsaid, unwritten, written]
    · rintro _ _ ⟨_, id, place⟩
      -- the word is said by this step, so that it is not said any more afterwards
      have written := step.isUnwritten_of_registered place
      have unwritten : call.isUnwritten = true := by simp [Call.isUnwritten, place]
      split <;> simp [StopPhase.unsaid, unwritten, written, Farewell.all]
  | exited c =>
    refine Or.inr ⟨List.nil_sublist _, ?_⟩
    rintro _ _ ⟨⟩
    exact .refl _
  | closed c p p' connection next step place =>
    rcases place with rfl | rfl <;> exact Or.inr ⟨.refl _, by rintro _ _ ⟨⟩⟩
  | _ => exact Or.inr ⟨List.nil_sublist _, by rintro _ _ ⟨⟩⟩

theorem TaskStep.unsaid (step : TaskStep now h s t task h' s' task') :
    (task = .stop .entering ∧ task' = .stop (.detaching s.state) ∧
      (s.state ≠ .stopping ∧ s.state ≠ .stopped) ∧ s'.state = .stopping) ∨
    (task'.unsaid.Sublist task.unsaid ∧
      ∀ c w, task.Says c w → (w :: task'.unsaid).Sublist task.unsaid) := by
  cases step with
  | stop p _ p' step =>
    refine step.unsaid.imp_left ?_
    rintro ⟨rfl, rfl, live, stopping⟩
    exact ⟨rfl, rfl, live, stopping⟩
  | _ => exact Or.inr ⟨.refl _, by rintro _ _ ⟨⟩⟩

/-! ## What was said -/

def said (s : Session) (c : Nat) : List Farewell :=
  farewells (s.connection c).sent

/-- Nobody says a word of a farewell but the stop whose turn it is. -/
def Mannered (s : Session) : Prop :=
  ∀ (t : Nat) (task : Task) (c : Nat) (m : Message) (w : Farewell), s.tasks[t]? = some task →
    task.Writes c m → m.farewell? = some w → task.Says c w

/-- A step says nothing, or the word whose turn it is. -/
theorem TaskStep.said_cases (step : TaskStep now h s t task h' s' task') (mannered : s.Mannered)
    (here : s.tasks[t]? = some task) (c : Nat) :
    s'.said c = s.said c ∨ ∃ w, task.Says c w ∧ s'.said c = s.said c ++ [w] := by
  rcases (step.talk.wrote c).farewells with same | ⟨m, w, ⟨writes, -⟩, word, more⟩
  · exact Or.inl same
  · exact Or.inr ⟨w, mannered t task c m w here writes word, more⟩

/-- A step that does not begin a stop adds no word to what was said and what is to be said. -/
theorem TaskStep.farewells (step : TaskStep now h s t task h' s' task') (mannered : s.Mannered)
    (here : s.tasks[t]? = some task) (drops : task'.unsaid.Sublist task.unsaid)
    (takes : ∀ c w, task.Says c w → (w :: task'.unsaid).Sublist task.unsaid) (c : Nat) :
    (s'.said c ++ task'.unsaid).Sublist (s.said c ++ task.unsaid) := by
  rcases step.said_cases mannered here c with same | ⟨w, turn, more⟩
  · rw [same]
    exact drops.append_left _
  · rw [more, List.append_assoc]
    exact (takes c w turn).append_left _

/-- How the words stand that are said and to be said in a session. -/
structure Parting (s : Session) : Prop where
  live : ¬ (s.state = .stopping ∨ s.state = .stopped) → ∀ c, s.said c = []
  alone : ∀ (t i : Nat) (task other : Task), s.tasks[t]? = some task → s.tasks[i]? = some other →
    task.unsaid ≠ [] → other.unsaid ≠ [] → t = i
  ordered : ∀ c, (s.said c).Sublist Farewell.all
  ahead : ∀ (t : Nat) (task : Task) (c : Nat), s.tasks[t]? = some task →
    (s.said c ++ task.unsaid).Sublist Farewell.all

/-- Only what is said, the state, and tasks that have something to say count. -/
theorem Parting.congr (parting : s.Parting) (state : s'.state = s.state)
    (said : ∀ c, s'.said c = s.said c)
    (tasks : ∀ (i : Nat) (x : Task), s'.tasks[i]? = some x → x.unsaid ≠ [] → s.tasks[i]? = some x) :
    s'.Parting where
  live := by simpa [state, said] using parting.live
  alone := fun t i task other here there more more' =>
    parting.alone t i task other (tasks t task here more) (tasks i other there more') more more'
  ordered := by simpa [said] using parting.ordered
  ahead := by
    intro t task c here
    rw [said]
    by_cases none : task.unsaid = []
    · simpa [none] using parting.ordered c
    · exact parting.ahead t task c (tasks t task here none)

theorem Parting.stepped (parting : s.Parting) (halted : s.Halted) (mannered : s.Mannered)
    (here : s.tasks[t]? = some task) (step : TaskStep now h s t task h' s' task') :
    (s'.setTask t task').Parting := by
  have said : ∀ c, (s'.setTask t task').said c = s'.said c := fun _ => rfl
  rcases step.unsaid with ⟨rfl, rfl, live, stopping⟩ | ⟨drops, takes⟩
  · -- before the stop that begins nobody has said anything, or has anything to say
    have going : ¬ (s.state = .stopping ∨ s.state = .stopped) := by simp [live]
    have nothing : ∀ c, s'.said c = [] := fun c => by
      rcases step.said_cases mannered here c with same | ⟨w, turn, -⟩
      · exact same.trans (parting.live going c)
      · cases turn
    have mine : ∀ {i : Nat} {x : Task}, (s'.setTask t (.stop (.detaching s.state))).tasks[i]? = some x →
        x.unsaid ≠ [] → i = t := by
      intro i x here' more
      rcases step.at here here' with ⟨same, -⟩ | ⟨-, same | ⟨-, born⟩⟩
      · exact same
      · exact absurd (halted i x same (Task.halting_of_unsaid more)) going
      · cases born <;> exact absurd rfl more
    refine ⟨fun other => absurd (Or.inl stopping) other, ?_, fun c => ?_, fun i x c here' => ?_⟩
    · exact fun i j x y here' there' more more' => (mine here' more).trans (mine there' more').symm
    · simp [said, nothing]
    · rw [said, nothing, List.nil_append]
      cases x with
      | stop p => exact p.unsaid_sublist
      | _ => exact List.nil_sublist _
  -- whoever has something to say after the step had it before
  · have before : ∀ {i : Nat} {x : Task}, (s'.setTask t task').tasks[i]? = some x → x.unsaid ≠ [] →
        ∃ old, s.tasks[i]? = some old ∧ old.unsaid ≠ [] := by
      intro i x here' more
      rcases step.at here here' with ⟨rfl, rfl⟩ | ⟨-, same | ⟨-, born⟩⟩
      · exact ⟨task, here, fun none => more (List.sublist_nil.mp (none ▸ drops))⟩
      · exact ⟨x, same, more⟩
      · cases born <;> exact absurd rfl more
    have own : ∀ c, (s'.said c ++ task'.unsaid).Sublist Farewell.all := fun c =>
      (step.farewells mannered here drops takes c).trans (parting.ahead t task c here)
    have ordered : ∀ c, (s'.said c).Sublist Farewell.all := fun c =>
      (List.sublist_append_left _ _).trans (own c)
    refine ⟨fun live c => ?_, fun i j x y here' there' more more' => ?_, ordered,
      fun i x c here' => ?_⟩
    · have going : ¬ (s.state = .stopping ∨ s.state = .stopped) := fun late =>
        live (step.stays_halted late)
      rcases step.said_cases mannered here c with same | ⟨w, turn, -⟩
      · exact same.trans (parting.live going c)
      · exact absurd (halted t task here (Task.halting_of_unsaid turn.unsaid_ne_nil)) going
    · obtain ⟨x₀, here₀, more₀⟩ := before here' more
      obtain ⟨y₀, there₀, more₀'⟩ := before there' more'
      exact parting.alone i j x₀ y₀ here₀ there₀ more₀ more₀'
    · rw [said]
      -- who has nothing more to say leaves what was said in order
      by_cases none : x.unsaid = []
      · simpa [none] using ordered c
      rcases step.at here here' with ⟨rfl, rfl⟩ | ⟨other, same | ⟨-, born⟩⟩
      · exact own c
      · rcases step.said_cases mannered here c with kept | ⟨w, turn, -⟩
        · rw [kept]
          exact parting.ahead i x c same
        · exact absurd (parting.alone i t x task same here none turn.unsaid_ne_nil) other
      · cases born <;> exact absurd rfl none

theorem Moved.parting (moved : Moved now h s h' s') (parting : s.Parting) (halted : s.Halted)
    (mannered : s.Mannered) : s'.Parting := by
  cases moved with
  | task t task _ s₁ task' here step => exact parting.stepped halted mannered here step
  | served _ _ serves =>
    have said : ∀ c, s'.said c = s.said c := fun c => by
      obtain ⟨answers, split⟩ := (serves.effect c).sent
      simp [Session.said, split]
    obtain ⟨c, connection, registry, handlers, passing, diagnostics, -, -, rfl⟩ := serves
    exact parting.congr rfl said fun _ _ here _ => here

end Session

/-! ## Who says what -/

/-- The method that the calls of a task have. -/
def Task.method? : Task → Option String
  | .start _ => some "initialize"
  | .stop _ => some "shutdown"
  | .query q _ => some q.method
  | .request method .. => some method
  | _ => none

def Task.Named (task : Task) : Prop :=
  ∀ c call, task.call? = some (c, call) → task.method? = some call.method

namespace Session

variable {now : Nat} {h : Host} {s s' : Session} {t : Nat}

theorem StopStep.named {p p' : StopPhase} (step : StopStep now s p s' p')
    (named : (Task.stop p).Named) : (Task.stop p').Named := by
  intro c' call' calling
  cases step with
  | asked c _ call free begun =>
    obtain ⟨rfl, rfl⟩ := by simpa [Task.call?] using calling
    exact congrArg some begun.method.symm
  | called c call _ call₁ unanswered step =>
    split at calling
    · simp [Task.call?] at calling
    · obtain ⟨rfl, rfl⟩ := by simpa [Task.call?] using calling
      exact (named c call rfl).trans (congrArg some step.method.symm)
  | closed c p p' connection next step place =>
    rcases place with rfl | rfl <;> simp [Task.call?] at calling
  | _ => simp [Task.call?] at calling

theorem QueryStep.named {q : EditQuery} {p p' : QueryPhase} (step : QueryStep now h s t q p s' p')
    (named : (Task.query q p).Named) : (Task.query q p').Named := by
  intro c' call' calling
  cases step with
  | ahead c _ _ _ place next =>
    cases next with
    | flushed => simp [Task.call?] at calling
    | asked _ call nothing begun =>
      obtain ⟨rfl, rfl⟩ := by simpa [Task.call?] using calling
      exact congrArg some begun.method.symm
  | wrote c params _ call can begun =>
    obtain ⟨rfl, rfl⟩ := by simpa [Task.call?] using calling
    exact congrArg some begun.method.symm
  | called c call _ call₁ unanswered step =>
    obtain ⟨rfl, rfl⟩ := by simpa [Task.call?] using calling
    exact (named c call rfl).trans (congrArg some step.method.symm)
  | began _ next => rcases next with rfl | ⟨-, rfl⟩ | ⟨result, rfl⟩ <;> simp [Task.call?] at calling
  | asked c _ _ place =>
    rcases place with ⟨rfl, rfl⟩ | ⟨rfl, language, rfl⟩ <;> simp [Task.call?] at calling
  | _ => simp [Task.call?] at calling

theorem RequestStep.named {method : String} {params : Option Json} {cancelled : Bool}
    {p p' : RequestPhase} (step : RequestStep now s method params cancelled p s' p')
    (named : (Task.request method params cancelled p).Named) :
    (Task.request method params cancelled p').Named := by
  intro c' call' calling
  cases step with
  | asked c _ call current begun =>
    obtain ⟨rfl, rfl⟩ := by simpa [Task.call?] using calling
    exact congrArg some begun.method.symm
  | called c call _ call₁ unanswered step =>
    obtain ⟨rfl, rfl⟩ := by simpa [Task.call?] using calling
    exact (named c _ rfl).trans (congrArg some step.method.symm)
  | _ => simp [Task.call?] at calling

end Session

namespace Scene

variable {setup : Setup} {moves : List Move} {d d' : Scene} {t c : Nat} {task : Task}

/-- Tasks call the methods that they are there for. -/
theorem named_after (moves : List Move) : ∀ (t : Nat) (task : Task),
    ((machine setup).after moves).session.tasks[t]? = some task → task.Named := by
  refine run_changes (fun _ d => ∀ (t : Nat) (task : Task),
    d.session.tasks[t]? = some task → task.Named) ?_ ?_ moves
  · simp [machine, Session.ofConfig]
  · rintro moves move d d' before after change ih t task here'
    -- a task without a call asks nothing
    have mute : ∀ {x : Task}, x.call? = none → x.Named := fun none c call calling => by
      simp [none] at calling
    cases change.came here' with
    | stayed _ here => exact ih t task here
    | called _ absent fresh => exact mute fresh.call?
    | born _ absent born => cases born <;> exact mute rfl
    | fired method params cancelled p here =>
      intro c call calling
      cases p with
      | calling c' call' =>
        obtain ⟨rfl, rfl⟩ := by simpa [Task.call?] using calling
        exact ih t _ here _ { call' with cancelled } rfl
      | _ => simp [Task.call?] at calling
    | stepped old _ s₁ here step result =>
      have named := ih t old here
      generalize d'.host = h' at step
      cases step with
      | start p _ _ p' step =>
        rintro c call calling
        cases p' with
        | initializing c attempt call' =>
          obtain ⟨rfl, rfl⟩ := by simpa [Task.call?] using calling
          rw [← after] at here'
          exact congrArg some (initializes_after _ t _ attempt _ here').method.symm
        | _ => simp [Task.call?] at calling
      | stop p _ p' step => exact step.named named
      | query q p _ p' step => exact step.named named
      | request method params cancelled p _ p' step => exact step.named named
      | watch | event | delivery => exact mute rfl

/-- What a task owes is about documents. -/
theorem about_after (moves : List Move) : ∀ (t : Nat) (task : Task),
    ((machine setup).after moves).session.tasks[t]? = some task →
      ∀ n ∈ task.owed, ∃ kind, n.kind? = some kind := by
  refine run_changes (fun _ d => ∀ (t : Nat) (task : Task), d.session.tasks[t]? = some task →
    ∀ n ∈ task.owed, ∃ kind, n.kind? = some kind) ?_ ?_ moves
  · simp [machine, Session.ofConfig]
  · rintro moves move d d' rfl rfl change ih t task here'
    cases change.came here' with
    | stayed _ here => exact ih t task here
    | called _ absent fresh => cases fresh <;> simp [Task.owed]
    | born _ absent born => cases born <;> simp [Task.owed]
    | fired => simp [Task.owed]
    | stepped old _ s₁ here step result => exact step.about

/-- Nobody but the stops of a session asks its server to shut down. -/
def OnlyStops (moves : List Move) : Prop :=
  ∀ params cancelled, Move.request "shutdown" params cancelled ∉ moves

theorem OnlyStops.left {more : List Move} (own : OnlyStops (moves ++ more)) : OnlyStops moves :=
  fun params cancelled among => own params cancelled (List.mem_append_left _ among)

/-- A property of runs that every change keeps holds after every run in which only stops ask the server to
    shut down. -/
theorem run_changes_of_onlyStops (inv : List Move → Scene → Prop) (start : inv [] (machine setup).start)
    (change : ∀ moves move d d', (machine setup).after moves = d →
      (machine setup).after (moves ++ [move]) = d' → OnlyStops moves → Change d d' → inv moves d →
      inv (moves ++ [move]) d')
    (moves : List Move) (own : OnlyStops moves) : inv moves ((machine setup).after moves) := by
  revert own
  refine run_changes (fun moves d => OnlyStops moves → inv moves d) (fun _ => start) ?_ moves
  exact fun moves move d d' before after step ih own =>
    change moves move d d' before after own.left step (ih own.left)

/-- Nobody says a word of a farewell but the stop whose turn it is. -/
theorem mannered_after (moves : List Move) (own : OnlyStops moves) :
    ((machine setup).after moves).session.Mannered := by
  intro t task c m w here writes word
  cases writes with
  -- of all notifications, `exit` alone is a word of the farewell, and a stop writes it
  | noticed n speech =>
    simp only [Message.farewell?, Option.ite_none_right_eq_some, Option.some.injEq] at word
    obtain ⟨exits, rfl⟩ := word
    unfold Task.speech? at speech
    split at speech <;> simp only [Option.some.injEq, Prod.mk.injEq, reduceCtorEq] at speech <;>
      obtain ⟨rfl, rfl⟩ := speech
    · simp at exits
    · simp [Session.notice] at exits
    · exact .exit
    · simp [Session.notice] at exits
    · simp [Session.notice] at exits
    · simp [Session.notice] at exits
    · obtain ⟨kind, about⟩ := about_after moves t _ here _ (List.mem_singleton_self _)
      simp [Notification.kind?, NoticeKind.ofMethod?, exits] at about
  | asked call id calling place =>
    change (if call.method = "shutdown" then some Farewell.shutdown else none) = some w at word
    simp only [Option.ite_none_right_eq_some, Option.some.injEq] at word
    obtain ⟨shuts, rfl⟩ := word
    -- `shutdown` is asked by a stop, or by a user, who does not do so here
    have method := named_after moves t task here c call calling
    rw [shuts] at method
    cases task with
    | start p => simp [Task.method?] at method
    | stop p =>
      cases p with
      | asking c' call' =>
        obtain ⟨rfl, rfl⟩ := by simpa [Task.call?] using calling
        exact .shutdown _ id place
      | _ => simp [Task.call?] at calling
    | query q p => cases q <;> simp [Task.method?, EditQuery.method] at method
    | request method' params cancelled p =>
      obtain rfl : method' = "shutdown" := by simpa [Task.method?] using method
      rcases called_after moves t _ here with ⟨move, among, calls⟩ | born
      · cases move <;> simp [Move.task?, Task.seed] at calls
        obtain ⟨rfl, rfl⟩ := calls
        exact absurd among (own _ _)
      · cases born
    | _ => simp [Task.method?] at method
  | withdrew call id e calling place =>
    simp [Message.farewell?, Call.cancelMessage, Connection.cancelMethod] at word

theorem Change.parting (change : Change d d') (parting : d.session.Parting)
    (halted : d.session.Halted) (mannered : d.session.Mannered) : d'.session.Parting := by
  rcases change.cases with ⟨-, moved⟩ | ⟨aside, -⟩
  · exact moved.parting parting halted mannered
  · refine parting.congr ?_ ?_ ?_
    · rw [aside.rest]
    · intro c
      rw [aside.rest]
      rfl
    · intro i x here' more
      rcases aside.place i x here' with same | ⟨-, fresh⟩ | ⟨method, params, cancelled, p, here, rfl⟩
      · exact same
      · cases fresh <;> exact absurd rfl more
      · exact absurd rfl more

/-- What is said in a session, and what is to be said, is `shutdown` and then `exit`, once each at most. -/
theorem parting_after (moves : List Move) (own : OnlyStops moves) :
    ((machine setup).after moves).session.Parting := by
  refine run_changes_of_onlyStops (fun _ d => d.session.Parting) ?_ ?_ moves own
  · constructor <;> simp [machine, Session.ofConfig, Session.said, Session.connection, farewells,
      Farewell.all]
  · rintro moves move d d' rfl rfl own change parting
    exact change.parting parting (halted_after moves) (mannered_after moves own)

end Scene

end LanguageClient
