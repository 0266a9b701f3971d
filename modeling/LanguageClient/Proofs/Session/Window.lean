import LanguageClient.Proofs.Session.Replay
import LanguageClient.Proofs.Session.Shutdown
/-!
# The window of requests

What a user wants to know is asked while the session runs: after a start has made it running, and before
a stop takes its connection out of use.  A task sees to that once, when it looks at the state and then
takes the connection in use (`Takes`).  After that it asks on this connection, whenever it gets to write.

So every request of a user goes back to a moment in the window (`requests_in_window`): it was written by a
task (`asking_after`), which had taken its connection before (`took_after`).  The writing itself may come
too early or too late, when a start or a stop gets in between (`requests_out_of_window`).
-/

namespace LanguageClient

/-! ## Tasks that ask for a user -/

namespace Task

/-- A task that asks the server something for a user. -/
def ForUser : Task → Prop
  | .query .. | .request .. => True
  | _ => False

/-- A task that asks for a user is about to see whether the session runs. -/
def Enters : Task → Prop
  | .query _ .locking | .request _ _ _ .entering => True
  | _ => False

/-- A task that asks for a user has seen that the session runs, and is about to take the connection in
    use. -/
def Looks : Task → Prop
  | .query _ .looking | .request _ _ _ .looking => True
  | _ => False

end Task

/-- A request that is not about the life of the session. -/
def Request.IsOrdinary (r : Request) : Prop :=
  r.method ≠ "initialize" ∧ r.method ≠ "shutdown"

instance (r : Request) : Decidable r.IsOrdinary :=
  inferInstanceAs (Decidable (_ ∧ _))

/-- A request was there, or it is the message that was written. -/
theorem Wrote.request_cases {may : Message → Prop} {sent sent' before after : List Message} {r : Request}
    (wrote : Wrote may sent sent') (split : sent' = before ++ .request r :: after) :
    (∃ after', sent = before ++ .request r :: after') ∨ before = sent ∧ may (.request r) := by
  obtain ⟨first, answers, rfl, allowed⟩ := wrote
  -- a request stands among answers only as the first message
  have new : ∀ {between}, first.toList ++ answers.map Message.response = between ++ .request r :: after →
      between = [] ∧ may (.request r) := by
    intro between same
    have other : ∀ {xs : List Message}, answers.map Message.response ≠ xs ++ .request r :: after := by
      intro xs same
      have among : Message.request r ∈ answers.map Message.response := by simp [same]
      simp at among
    cases first with
    | none => exact absurd same other
    | some m =>
      cases between with
      | nil =>
        obtain ⟨rfl, -⟩ := by simpa using same
        exact ⟨rfl, allowed _ rfl⟩
      | cons m' between => exact absurd (List.cons.inj same).2 other
  -- it stands among what was sent before, or among what is new
  rcases List.append_eq_append_iff.mp split with ⟨between, rfl, more⟩ | ⟨between, rfl, more⟩
  · obtain ⟨rfl, allowed⟩ := new more
    exact Or.inr ⟨by simp, allowed⟩
  · cases between with
    | nil =>
      obtain ⟨-, allowed⟩ := @new [] more.symm
      exact Or.inr ⟨by simp, allowed⟩
    | cons m between =>
      obtain ⟨rfl, -⟩ := List.cons.inj more
      exact Or.inl ⟨between, rfl⟩

namespace Session

variable {now : Nat} {h h' : Host} {s s' : Session} {t c : Nat} {task task' : Task}

/-- A task goes on to take the connection in use when it sees that the session runs. -/
theorem TaskStep.looks (step : TaskStep now h s t task h' s' task') (looks : task'.Looks) :
    task.Enters ∧ s.state = .running := by
  cases step with
  | query q p _ p' step =>
    cases step with
    | entered free running => exact ⟨trivial, running⟩
    | began _ next => rcases next with rfl | ⟨-, rfl⟩ | ⟨result, rfl⟩ <;> exact looks.elim
    | asked c _ _ place => rcases place with ⟨-, rfl⟩ | ⟨-, language, rfl⟩ <;> exact looks.elim
    | ahead c _ _ _ place next => cases next <;> exact looks.elim
    | _ => exact looks.elim
  | request method params cancelled p _ p' step =>
    cases step with
    | began running => exact ⟨trivial, running⟩
    | _ => exact looks.elim
  | _ => exact looks.elim

/-- A task that asks for a user works on the connection that it has, or takes the one in use. -/
theorem TaskStep.takes (step : TaskStep now h s t task h' s' task') (user : task'.ForUser)
    (on : task'.connection? = some c) :
    task.ForUser ∧ (task.connection? = some c ∨ task.Looks ∧ s.current = some c) := by
  cases step with
  | query q p _ p' step =>
    refine ⟨trivial, ?_⟩
    cases step with
    | began _ next =>
      rcases next with rfl | ⟨-, rfl⟩ | ⟨result, rfl⟩ <;> simp [Task.connection?] at on
    | regarded c' current => exact Or.inr ⟨trivial, current.trans on⟩
    | asked c _ _ place =>
      rcases place with ⟨rfl, rfl⟩ | ⟨rfl, language, rfl⟩ <;> exact Or.inl on
    | ahead c' _ _ _ place next =>
      obtain rfl : c' = c := by cases next <;> simpa [Task.connection?] using on
      rcases place with ⟨rfl, current⟩ | rfl | ⟨language, rfl⟩
      · exact Or.inr ⟨trivial, current⟩
      · exact Or.inl rfl
      · exact Or.inl rfl
    | wrote | called => exact Or.inl on
    | _ => simp [Task.connection?] at on
  | request method params cancelled p _ p' step =>
    refine ⟨trivial, ?_⟩
    cases step with
    | asked c' _ call current begun => exact Or.inr ⟨trivial, current.trans on⟩
    | called => exact Or.inl on
    | _ => simp [Task.connection?] at on
  | _ => exact user.elim

end Session

namespace Scene

variable {setup : Setup} {moves : List Move} {d d' : Scene} {t c : Nat} {task : Task}

/-! ## The running window -/

/-- A task that asks for a user has found the session running. -/
def FoundRunning (setup : Setup) (moves : List Move) (t : Nat) : Prop :=
  ∃ before move later, moves = before ++ move :: later ∧
    ((machine setup).after before).session.state = .running ∧
    (∃ task, ((machine setup).after before).session.tasks[t]? = some task ∧ task.Enters) ∧
    ∃ task, ((machine setup).after (before ++ [move])).session.tasks[t]? = some task ∧ task.Looks

theorem FoundRunning.append (found : FoundRunning setup moves t) (more : List Move) :
    FoundRunning setup (moves ++ more) t := by
  obtain ⟨before, move, later, rfl, rest⟩ := found
  exact ⟨before, move, later ++ more, by simp, rest⟩

/-- Whoever is about to take the connection in use has found the session running. -/
theorem foundRunning_after (moves : List Move) : ∀ (t : Nat) (task : Task),
    ((machine setup).after moves).session.tasks[t]? = some task → task.Looks →
      FoundRunning setup moves t := by
  refine run_changes (fun moves d => ∀ (t : Nat) (task : Task), d.session.tasks[t]? = some task →
    task.Looks → FoundRunning setup moves t) ?_ ?_ moves
  · simp [machine, Session.ofConfig]
  · rintro moves move d d' rfl rfl change ih t task here' looks
    cases change.came here' with
    | stayed _ here => exact (ih t task here looks).append [move]
    | called _ absent fresh => cases fresh <;> exact looks.elim
    | born _ absent born => cases born <;> exact looks.elim
    | fired method params cancelled p here =>
      refine (ih t _ here ?_).append [move]
      cases p with
      | looking => trivial
      | _ => exact looks.elim
    | stepped old _ s₁ here step result =>
      obtain ⟨enters, running⟩ := step.looks looks
      exact ⟨moves, move, [], rfl, running, ⟨old, here, enters⟩, ⟨task, here', looks⟩⟩

/-- A run in which the session was running once has begun to run. -/
theorem ranOn_of_running {more : List Move}
    (running : ((machine setup).after moves).session.state = .running) :
    ∃ t c kind, RanOn setup (moves ++ more) t c kind := by
  rcases quiet_or_ranOn moves with quiet | ⟨t, c, kind, ran⟩
  · exact absurd running quiet.idle
  · exact ⟨t, c, kind, ran.append more⟩

theorem FoundRunning.ranOn (found : FoundRunning setup moves t) :
    ∃ t c kind, RanOn setup moves t c kind := by
  obtain ⟨before, move, later, rfl, running, -⟩ := found
  exact ranOn_of_running running

theorem StoppedRunning.ranOn (won : StoppedRunning setup moves t) :
    ∃ t c kind, RanOn setup moves t c kind := by
  obtain ⟨before, move, later, rfl, -, running, -⟩ := won
  exact ranOn_of_running running

/-- When the session has run, a connection that is out of use is not put in use again. -/
theorem Change.unused (change : Change d d') (on : d.session.On c) (unused : d.session.current = none) :
    d'.session.current = none := by
  rcases change.cases with ⟨-, moved⟩ | ⟨aside, -⟩
  · generalize d'.host = h' at moved
    generalize d'.session = s' at moved
    cases moved with
    | task t task _ s₁ task' here step =>
      change s₁.current = none
      exact on.unused here step unused
    | served _ _ serves =>
      obtain ⟨c, connection, registry, handlers, passing, diagnostics, -, -, rfl⟩ := serves
      exact unused
  · rw [aside.rest]
    exact unused

/-- A server that was told a word of farewell is not asked anything new: its connection is out of use. -/
theorem unused_of_said (moves : List Move) (own : OnlyStops moves) : ∀ (c : Nat) (w : Farewell),
    w ∈ ((machine setup).after moves).session.said c →
      ((machine setup).after moves).session.current = none := by
  refine run_changes_of_onlyStops (fun _ d => ∀ (c : Nat) (w : Farewell), w ∈ d.session.said c →
    d.session.current = none) ?_ ?_ moves own
  · simp [machine, Session.ofConfig]
  · rintro moves move d d' rfl rfl own change ih c w word
    rcases change.mem_said (mannered_after moves own) word with before | ⟨t, task, here, turn⟩
    · obtain ⟨t, won⟩ := stoppedRunning_of_said moves own c w before
      obtain ⟨i, c', kind, ran⟩ := won.ranOn
      exact change.unused ran.on (ih c w before)
    · have won : StoppedRunning setup moves t := by
        have more := turn.unsaid_ne_nil
        cases turn <;> exact stoppedRunning_after moves t _ here more
      obtain ⟨i, c', kind, ran⟩ := won.ranOn
      refine change.unused ran.on (ran.on.detached t task here ?_)
      cases turn <;> trivial

/-- A task that asks for a user is about to take a connection, in the window: it has found the session
    running; the session has begun to run on this connection, and it is in use; no stop has taken it out
    of use, and if only stops ask the server to shut down, nobody has. -/
structure Takes (setup : Setup) (moves : List Move) (t c : Nat) (task : Task) : Prop where
  here : ((machine setup).after moves).session.tasks[t]? = some task
  looks : task.Looks
  found : FoundRunning setup moves t
  begun : ∃ i kind, RanOn setup moves i c kind
  used : ((machine setup).after moves).session.current = some c
  unstopped : ∀ (i : Nat) (p : StopPhase),
    ((machine setup).after moves).session.tasks[i]? = some (.stop p) →
      p = .entering ∨ (∃ previous, p = .detaching previous) ∨ p = .ended
  unsaid : OnlyStops moves → ((machine setup).after moves).session.said c = []

/-- Whoever takes the connection in use does so in the window. -/
theorem takes_after (here : ((machine setup).after moves).session.tasks[t]? = some task)
    (looks : task.Looks) (used : ((machine setup).after moves).session.current = some c) :
    Takes setup moves t c task := by
  have found := foundRunning_after moves t task here looks
  obtain ⟨i, c', kind, ran⟩ := found.ranOn
  obtain rfl := ran.on.current c used
  refine ⟨here, looks, found, ⟨i, kind, ran⟩, used, fun j p there => ?_, fun own => ?_⟩
  · have attached : ¬ (Task.stop p).Detached := fun detached => by
      simp [ran.on.detached j _ there detached] at used
    cases p with
    | entering => exact Or.inl rfl
    | detaching previous => exact Or.inr (Or.inl ⟨previous, rfl⟩)
    | ended => exact Or.inr (Or.inr rfl)
    | _ => exact absurd trivial attached
  · by_contra some
    obtain ⟨w, word⟩ := List.exists_mem_of_ne_nil _ some
    simp [unused_of_said moves own c w word] at used

/-- A task that works on a connection for a user has taken it in the window. -/
def Took (setup : Setup) (moves : List Move) (t c : Nat) (task : Task) : Prop :=
  ∃ taken later first, moves = taken ++ later ∧ Takes setup taken t c first ∧ task.seed = first.seed

theorem Took.append {old : Task} (took : Took setup moves t c old) (same : task.seed = old.seed)
    (more : List Move) : Took setup (moves ++ more) t c task := by
  obtain ⟨taken, later, first, rfl, takes, seed⟩ := took
  exact ⟨taken, later ++ more, first, by simp, takes, same.trans seed⟩

theorem took_after (moves : List Move) : ∀ (t c : Nat) (task : Task),
    ((machine setup).after moves).session.tasks[t]? = some task → task.ForUser →
      task.connection? = some c → Took setup moves t c task := by
  refine run_changes (fun moves d => ∀ (t c : Nat) (task : Task), d.session.tasks[t]? = some task →
    task.ForUser → task.connection? = some c → Took setup moves t c task) ?_ ?_ moves
  · simp [machine, Session.ofConfig]
  · rintro moves move d d' rfl rfl change ih t c task here' user on
    cases change.came here' with
    | stayed _ here => exact (ih t c task here user on).append rfl [move]
    | called _ absent fresh => simp [fresh.connection?] at on
    | born _ absent born => cases born <;> exact user.elim
    | fired method params cancelled p here =>
      refine (ih t c _ here trivial ?_).append rfl [move]
      cases p <;> exact on
    | stepped old _ s₁ here step result =>
      obtain ⟨user, had | ⟨looks, used⟩⟩ := step.takes user on
      · exact (ih t c old here user had).append step.seed [move]
      · exact ⟨moves, [move], old, rfl, takes_after here looks used, step.seed⟩

/-! ## Requests -/

/-- What was written stays, and a connection that can be written on could be written on before. -/
theorem kept_on (moves more : List Move) (c : Nat) :
    (((machine setup).after moves).session.connection c).sent <+:
        (((machine setup).after (moves ++ more)).session.connection c).sent ∧
      ((((machine setup).after moves).session.connection c).canWrite = false →
        (((machine setup).after (moves ++ more)).session.connection c).canWrite = false) := by
  induction more using List.reverseRecOn with
  | nil => simp
  | append_singleton more move ih =>
    obtain ⟨begins, mute⟩ := ih
    have change := @change_after setup (moves ++ more) move
    obtain ⟨rest, wrote, -⟩ := change.sent_cases c
    rw [← List.append_assoc]
    exact ⟨begins.trans (wrote ▸ List.prefix_append _ _), fun cannot => change.mute_stays c (mute cannot)⟩

/-- A task is about to write a request, after all that was written before. -/
structure Asking (d : Scene) (t c : Nat) (task : Task) (before : List Message) (r : Request) : Prop where
  here : d.session.tasks[t]? = some task
  writes : task.Writes c (.request r)
  can : (d.session.connection c).canWrite = true
  sent : (d.session.connection c).sent = before

/-- Every request on a connection was written by a task. -/
theorem asking_after (moves : List Move) : ∀ (c : Nat) (before after : List Message) (r : Request),
    (((machine setup).after moves).session.connection c).sent = before ++ .request r :: after →
      (machine setup).Once moves fun d => ∃ t task, d.Asking t c task before r := by
  refine run_changes (fun moves d => ∀ (c : Nat) (before after : List Message) (r : Request),
    (d.session.connection c).sent = before ++ .request r :: after →
      (machine setup).Once moves fun d => ∃ t task, d.Asking t c task before r) ?_ ?_ moves
  · simp [machine, Session.ofConfig, Session.connection]
  · rintro moves move d d' rfl rfl change ih c before after r split
    refine Machine.Once.append ?_ [move]
    rcases (change.wrote c).request_cases split with ⟨after', there⟩ | ⟨rfl, can, t, task, here, writes⟩
    · exact ih c before after' r there
    · exact Machine.Once.now ⟨t, task, here, writes, can, rfl⟩

/-- An ordinary request is written by a task that asks for a user, on the connection that it has taken. -/
theorem Asking.forUser {before : List Message} {r : Request}
    (asking : ((machine setup).after moves).Asking t c task before r) (ordinary : r.IsOrdinary) :
    task.ForUser ∧ task.connection? = some c := by
  obtain ⟨here, writes, -, -⟩ := asking
  generalize message : Message.request r = m at writes
  cases writes with
  | asked call id calling place =>
    obtain rfl := Message.request.inj message
    refine ⟨?_, Session.connection?_of_call? calling⟩
    have method := named_after moves t task here c call calling
    cases task with
    | start p => exact absurd (Option.some.inj method).symm ordinary.1
    | stop p => exact absurd (Option.some.inj method).symm ordinary.2
    | query | request => trivial
    | watch | event | delivery => simp [Task.method?] at method
  | noticed | withdrew => simp [Call.cancelMessage] at message

/-- A question that is about to take its connection does so after `initialized`, unless nothing can be
    written any more. -/
theorem Takes.greeted {q : EditQuery} (takes : Takes setup moves t c task)
    (question : task.seed = .query q .entering) :
    .notification initialized ∈ (((machine setup).after moves).session.connection c).sent ∨
      (((machine setup).after moves).session.connection c).canWrite = false := by
  obtain ⟨i, kind, ran⟩ := takes.begun
  refine ran.greeting.resolve_left fun greets => ?_
  cases task with
  | query q' p =>
    -- both would hold the lock on the documents
    have holds : (Task.query q' p).HoldsSync := by
      have looks := takes.looks
      cases p with
      | looking => trivial
      | _ => exact looks.elim
    obtain rfl := (locked_after moves).unique takes.here holds greets trivial
    simpa using takes.here.symm.trans greets
  | _ => simp [Task.seed] at question

/-- **Requests are taken up in the running window.**  However requests, questions, starts and stops take
    their turns, a request on a connection, other than `initialize` and `shutdown`, was written by a task
    that asks for a user and has taken the connection before, in the window (`Takes`).  When it is written,

    * the server has got `initialized`, or a request finds the start of the running session still about to
      send it;
    * as long as the session runs, the server has not been asked to shut down, but by a user. -/
theorem requests_in_window (setup : Setup) (moves : List Move) (c : Nat) (before after : List Message)
    (r : Request)
    (sent : (((machine setup).after moves).session.connection c).sent = before ++ .request r :: after)
    (ordinary : r.IsOrdinary) :
    ∃ (taken between later : List Move) (t : Nat) (first task : Task),
      moves = taken ++ between ++ later ∧
      Takes setup taken t c first ∧ task.seed = first.seed ∧
      ((machine setup).after (taken ++ between)).Asking t c task before r ∧
      (.notification initialized ∈ before ∨
        (∃ method params cancelled p, task = .request method params cancelled p) ∧
        ∃ (i : Nat) (kind : SyncKind),
          ((machine setup).after (taken ++ between)).session.tasks[i]? =
            some (.start (.greeting c kind))) ∧
      (OnlyStops moves → ((machine setup).after (taken ++ between)).session.state = .running →
        .shutdown ∉ farewells before) := by
  obtain ⟨written, later, rfl, t, task, asking⟩ := asking_after moves c before after r sent
  obtain ⟨user, on⟩ := asking.forUser ordinary
  -- the task took its connection at an earlier moment, when the session gave it out
  obtain ⟨taken, between, first, rfl, takes, seed⟩ := took_after written t c task asking.here user on
  refine ⟨taken, between, later, t, first, task, rfl, takes, seed, asking, ?_, fun own running => ?_⟩
  · rw [← asking.sent]
    -- a question takes it after the greeting, a request of the user while the session runs
    cases task with
    | query q p =>
      obtain ⟨begins, mute⟩ := @kept_on setup taken between c
      rcases takes.greeted seed.symm with got | cannot
      · exact Or.inl (begins.subset got)
      · simpa [asking.can] using mute cannot
    | request method params cancelled p =>
      obtain ⟨i, kind, ran⟩ := takes.begun
      rcases (ran.append between).greeting with greets | got | cannot
      · exact Or.inr ⟨⟨method, params, cancelled, p, rfl⟩, i, kind, greets⟩
      · exact Or.inl got
      · simp [asking.can] at cannot
    | _ => exact user.elim
  -- who runs has not been told to stop, so no farewell was written
  · have parting := @parting_after setup (taken ++ between) own.left
    have nothing : farewells before = [] := by
      rw [← asking.sent]
      exact parting.live (by simp [running]) c
    simp [nothing]

/-- What is written on the first connection of a run. -/
def writtenBy (moves : List Move) : List Message :=
  (((machine agreeing).after moves).session.connection 0).sent

/-- A server agrees to be initialized. -/
def agreed : List Move :=
  let result : Json := .obj [("capabilities", .obj [])]
  [.start] ++ goesOn 6 ++
    [.feed 0 (Utf8.encodeString (Message.response (.success (.number 1) result)).frame),
      .act (.reader 0), .act (.reader 0)]

/-- A user sends a request, and its task takes some steps. -/
def asks (method : String) (t steps : Nat) : List Move :=
  .request method none false :: List.replicate steps (.act (.task t))

/-- The request of a user who looks for symbols. -/
def symbolsRequest (id : UInt64) : Request :=
  { id := .number id, method := "workspace/symbol", params := none }

/-- A user of a running session looks for symbols. -/
def searching : List Move :=
  agreed ++ goesOn 6 ++ asks "workspace/symbol" 2 4

theorem requests_in_window_searching :
    writtenBy searching = (writtenBy searching).take 2 ++ [.request (symbolsRequest 2)] ∧
      (symbolsRequest 2).IsOrdinary ∧ .notification initialized ∈ (writtenBy searching).take 2 ∧
      ∃ taken t first, Takes agreeing taken t 0 first := by
  have sent : writtenBy searching = (writtenBy searching).take 2 ++ [.request (symbolsRequest 2)] := by
    decide +kernel
  have ordinary : (symbolsRequest 2).IsOrdinary := by decide
  obtain ⟨taken, between, later, t, first, task, -, takes, -⟩ :=
    requests_in_window agreeing searching 0 _ [] (symbolsRequest 2) sent ordinary
  exact ⟨sent, ordinary, by decide +kernel, taken, t, first, takes⟩

/-! ## Out of the window -/

/-- The requests on a connection, but for those about the life of the session, stand between `initialized`
    and `shutdown`. -/
def Windowed (sent : List Message) : Prop :=
  ∀ (before after : List Message) (r : Request), sent = before ++ .request r :: after → r.IsOrdinary →
    .notification initialized ∈ before ∧ .shutdown ∉ farewells before

theorem not_windowed {sent : List Message} (n : Nat)
    (last : sent = sent.take n ++ [.request (symbolsRequest 2)])
    (out : .notification initialized ∉ sent.take n ∨ .shutdown ∈ farewells (sent.take n)) :
    ¬ Windowed sent := by
  intro windowed
  obtain ⟨got, unsaid⟩ := windowed _ _ _ last (by constructor <;> simp [symbolsRequest])
  exact out.elim (fun early => early got) fun late => unsaid late

/-- A stop asks the server to shut down, while a request has the connection and has yet to be written. -/
def overtakenByStop : List Move :=
  agreed ++ goesOn 6 ++ asks "workspace/symbol" 2 2 ++ [.stop] ++ List.replicate 5 (.act (.task 3)) ++
    List.replicate 2 (.act (.task 2))

/-- A request is written when the start has just made the session running. -/
def aheadOfStart : List Move :=
  agreed ++ goesOn 3 ++ asks "workspace/symbol" 2 4

/-- **Requests are also written out of the window**: after `shutdown`, when a stop comes between the taking
    of the connection and the writing; and before `initialized`, when the start that has made the session
    running comes to write later. -/
theorem requests_out_of_window :
    ¬ Windowed (writtenBy overtakenByStop) ∧ ¬ Windowed (writtenBy aheadOfStart) := by
  refine ⟨not_windowed 3 ?_ (Or.inr ?_), not_windowed 1 ?_ (Or.inl ?_)⟩ <;> decide +kernel

end Scene

end LanguageClient
