import LanguageClient.Proofs.Session.Farewell
import LanguageClient.Proofs.Session.Surfaced
/-!
# Orderly shutdown

How many stops are called at the same time, and whatever events, deliveries, questions and starts are
under way, a server is told goodbye in one order: `shutdown` once, then `exit` once, and nothing about
documents after `shutdown` (`orderly_shutdown`).

Two things carry this.  A stop asks the server to shut down only when nobody holds the lock on the
documents, and from then on nobody takes it, for the session does not run any more (`Hushed`); all that is
told of documents is told with that lock.  And a stop that has anything to say goes back to the moment at
which it found the session running (`StoppedRunning`).
-/

namespace LanguageClient

/-- Whoever does not hold the lock on the documents writes nothing about them. -/
theorem Task.Writes.untold {task : Task} {c : Nat} {m : Message}
    (writes : task.Writes c m) (idle : ¬ task.HoldsSync) : m.documentNotification? = none := by
  cases writes with
  | noticed n speech =>
    cases about : n.kind? with
    | none => simp [Message.documentNotification?, about]
    | some kind => exact absurd (Task.holds_of_speech speech about).1 idle
  | asked call id calling place => rfl
  | withdrew call id e calling place => rfl

/-- The outcome of a call is there, or its next step gives it. -/
def Call.Settled (now : Nat) (c : Connection) (call : Call) : Prop :=
  call.result?.isSome = true ∨
    ∃ c' call', call.step now c = some (c', call') ∧ call'.result?.isSome = true

/-- A call that ends with a step is settled before it. -/
theorem Call.Step.settled {now : Nat} {c c' : Connection} {call : Call} {phase : CallPhase}
    (step : Step now c call c' phase) (ended : { call with phase }.result?.isSome = true) :
    call.Settled now c := by
  refine Or.inr ?_
  cases step with
  | refused e fresh why =>
    by_cases past : c.terminated = true
    · exact ⟨c, _, by simp only [Call.step, fresh, past, if_true]; rfl, rfl⟩
    · obtain ⟨fired, -⟩ := why.resolve_left fun both => past both.1
      exact ⟨c, _, by simp only [Call.step, fresh, past, fired, if_true]; rfl, rfl⟩
  | turnedAway id place past => exact ⟨c, _, by simp only [Call.step, place, past, if_true]; rfl, rfl⟩
  | answered id deadline response place reply =>
    exact ⟨_, _, by simp only [Call.step, place, reply]; rfl, rfl⟩
  | withdrawn id e place => exact ⟨_, _, by simp only [Call.step, place]; rfl, rfl⟩
  | late id e place gone =>
    exact ⟨_, _, by simp only [Call.step, place, List.contains_iff_mem, gone, if_false]; rfl, rfl⟩
  | notified id e place free =>
    exact ⟨c.tryWrite (Call.cancelMessage id), { call with phase := .ended (.error e) },
      by simp [Call.step, place, free], rfl⟩
  | _ => simp [Call.result?] at ended

namespace Session

variable {now : Nat} {h h' : Host} {s s' : Session} {t c : Nat} {task task' : Task} {p : StopPhase}

/-! ## When nothing more is told of documents -/

/-- The session does not run any more, and nobody holds the lock on the documents. -/
structure Hushed (s : Session) : Prop where
  halted : s.state = .stopping ∨ s.state = .stopped
  idle : ∀ (t : Nat) (task : Task), s.tasks[t]? = some task → ¬ task.HoldsSync

theorem Moved.hushed (moved : Moved now h s h' s') (locked : s.Locked) (hushed : s.Hushed) :
    s'.Hushed := by
  cases moved with
  | served _ _ serves =>
    obtain ⟨c, connection, registry, handlers, passing, diagnostics, -, -, rfl⟩ := serves
    exact ⟨hushed.halted, hushed.idle⟩
  | task t task _ s₁ task' here step =>
    have halted := step.stays_halted hushed.halted
    refine ⟨halted, fun i x here' holds => ?_⟩
    rcases step.at here here' with ⟨rfl, rfl⟩ | ⟨-, same | ⟨-, born⟩⟩
    · rcases step.lock_cases (locked.sound i task here) with
        ⟨-, before⟩ | ⟨-, -, running, -⟩ | ⟨-, -, given⟩
      · exact hushed.idle i task here (before holds)
      · simp [running] at halted
      · exact given holds
    · exact hushed.idle i x same holds
    · cases born <;> exact holds

/-- A stop begins to ask the server when nobody has the lock on the documents. -/
theorem StopStep.asking {call' : Call} (step : StopStep now s p s' (.asking c call')) :
    (∃ call, p = .asking c call) ∨ (Task.stop p).Halting ∧ s.syncOwner = none := by
  generalize place : StopPhase.asking c call' = p' at step
  cases step with
  | asked c' _ call free begun => exact Or.inr ⟨trivial, free⟩
  | called c' call _ call₁ unanswered step =>
    split at place
    · simp at place
    · obtain ⟨rfl, -⟩ := by simpa using place
      exact Or.inl ⟨call, rfl⟩
  | closed c' p p' connection next step place' =>
    rcases place' with rfl | rfl <;> simp at place
  | _ => simp at place

/-- A stop goes on to `exit` when the call that asks the server to shut down is settled. -/
theorem StopStep.exiting (step : StopStep now s p s' (.exiting c)) :
    ∃ call, p = .asking c call ∧ call.Settled now (s.connection c) := by
  generalize place : StopPhase.exiting c = p' at step
  cases step with
  | answered c' call past =>
    obtain rfl := by simpa using place
    exact ⟨call, rfl, Or.inl past⟩
  | called c' call _ call₁ unanswered step =>
    split at place
    · rename_i past
      obtain rfl := by simpa using place
      obtain ⟨connection, phase, step⟩ := step
      exact ⟨call, rfl, step.settled past⟩
    · simp at place
  | closed c' p p' connection next step place' =>
    rcases place' with rfl | rfl <;> simp at place
  | _ => simp at place

/-- Before a stop has asked a server to shut down, `exit` was not said. -/
theorem Parting.exit_unsaid {call : Call} (parting : s.Parting)
    (here : s.tasks[t]? = some (.stop (.asking c call))) : .exit ∉ s.said c := by
  intro word
  have ahead := parting.ahead t _ c here
  have counted := ahead.count_le .exit
  have once : 0 < (s.said c).count .exit := List.count_pos_iff.mpr word
  have more : 0 < (Task.stop (.asking c call)).unsaid.count .exit := by
    refine List.count_pos_iff.mpr ?_
    cases unwritten : call.isUnwritten <;>
      simp [Task.unsaid, StopPhase.unsaid, unwritten, Farewell.all]
  simp [List.count_append, Farewell.all] at counted
  omega

end Session

namespace Scene

variable {setup : Setup} {moves : List Move} {d d' : Scene} {t c : Nat} {task : Task} {p : StopPhase}

/-! ## Stops along a run -/

/-- A stop stands where it stood, it is new, or it took a step. -/
theorem Change.stop_at (change : Change d d') (here' : d'.session.tasks[t]? = some (.stop p)) :
    d.session.tasks[t]? = some (.stop p) ∨ p = .entering ∨
      ∃ q s', d.session.tasks[t]? = some (.stop q) ∧ Session.StopStep d.now d.session q s' p ∧
        d'.session = s'.setTask t (.stop p) := by
  cases change.came here' with
  | stayed _ here => exact Or.inl here
  | called _ absent fresh =>
    cases fresh
    exact Or.inr (Or.inl rfl)
  | born _ absent born => cases born
  | stepped _ _ s₁ here step result =>
    generalize d'.host = h' at step
    cases step with
    | stop q _ _ step => exact Or.inr (Or.inr ⟨q, s₁, here, step, result⟩)

/-- A stop has found the session running, and has moved it on to stopping. -/
def StoppedRunning (setup : Setup) (moves : List Move) (t : Nat) : Prop :=
  ∃ before move later, moves = before ++ move :: later ∧
    ((machine setup).after before).session.tasks[t]? = some (.stop .entering) ∧
    ((machine setup).after before).session.state = .running ∧
    ((machine setup).after (before ++ [move])).session.tasks[t]? = some (.stop (.detaching .running)) ∧
    ((machine setup).after (before ++ [move])).session.state = .stopping

theorem StoppedRunning.append (won : StoppedRunning setup moves t) (more : List Move) :
    StoppedRunning setup (moves ++ more) t := by
  obtain ⟨before, move, later, rfl, rest⟩ := won
  exact ⟨before, move, later ++ more, by simp, rest⟩

/-- Whoever has something to say has found the session running. -/
theorem stoppedRunning_after (moves : List Move) : ∀ (t : Nat) (p : StopPhase),
    ((machine setup).after moves).session.tasks[t]? = some (.stop p) → p.unsaid ≠ [] →
      StoppedRunning setup moves t := by
  refine run_changes (fun moves d => ∀ (t : Nat) (p : StopPhase),
    d.session.tasks[t]? = some (.stop p) → p.unsaid ≠ [] → StoppedRunning setup moves t) ?_ ?_ moves
  · simp [machine, Session.ofConfig]
  · rintro moves move d d' rfl after change ih t p here' more
    rcases change.stop_at here' with same | rfl | ⟨q, s', here, step, result⟩
    · exact (ih t p same more).append [move]
    · exact absurd rfl more
    · rcases step.unsaid with ⟨rfl, rfl, -, stopping⟩ | ⟨drops, -⟩
      · cases state : ((machine setup).after moves).session.state with
        | running =>
          rw [state] at here'
          refine ⟨moves, move, [], rfl, here, state, by rw [after]; exact here', ?_⟩
          rw [after, result]
          exact stopping
        | _ => simp [state, StopPhase.unsaid] at more
      · refine (ih t q here fun none => more ?_).append [move]
        exact List.sublist_nil.mp (none ▸ drops)

/-- A change says nothing, or the word of a stop whose turn it is. -/
theorem Change.said_cases (change : Change d d') (mannered : d.session.Mannered) (c : Nat) :
    d'.session.said c = d.session.said c ∨ ∃ (t : Nat) (task : Task) (w : Farewell),
      d.session.tasks[t]? = some task ∧ task.Says c w ∧ d'.session.said c = d.session.said c ++ [w] := by
  rcases (change.wrote c).farewells with same | ⟨m, w, ⟨-, t, task, here, writes⟩, word, more⟩
  · exact Or.inl same
  · exact Or.inr ⟨t, task, w, here, mannered t task c m w here writes word, more⟩

/-- A word that is said was not, or it was the turn of some stop to say it. -/
theorem Change.mem_said {w : Farewell} (change : Change d d') (mannered : d.session.Mannered)
    (word : w ∈ d'.session.said c) : w ∈ d.session.said c ∨
      ∃ (t : Nat) (task : Task), d.session.tasks[t]? = some task ∧ task.Says c w := by
  rcases change.said_cases mannered c with same | ⟨t, task, w', here, turn, more⟩
  · exact Or.inl (same ▸ word)
  · rw [more, List.mem_append, List.mem_singleton] at word
    rcases word with before | rfl
    · exact Or.inl before
    · exact Or.inr ⟨t, task, here, turn⟩

/-- What was said was said for a stop that has found the session running. -/
theorem stoppedRunning_of_said (moves : List Move) (own : OnlyStops moves) : ∀ (c : Nat) (w : Farewell),
    w ∈ ((machine setup).after moves).session.said c → ∃ t, StoppedRunning setup moves t := by
  refine run_changes_of_onlyStops (fun moves d => ∀ (c : Nat) (w : Farewell),
    w ∈ d.session.said c → ∃ t, StoppedRunning setup moves t) ?_ ?_ moves own
  · simp [machine, Session.ofConfig, Session.said, Session.connection, farewells]
  · rintro moves move d d' rfl rfl own change ih c w word
    rcases change.mem_said (mannered_after moves own) word with before | ⟨t, task, here, turn⟩
    · obtain ⟨t, won⟩ := ih c w before
      exact ⟨t, won.append [move]⟩
    · refine ⟨t, StoppedRunning.append ?_ [move]⟩
      have more := turn.unsaid_ne_nil
      cases turn <;> exact stoppedRunning_after moves t _ here more

/-! ## `exit` -/

/-- The request by which a stop asks a server to shut down is settled. -/
def ShutdownSettled (d : Scene) (c : Nat) : Prop :=
  ∃ (t : Nat) (call : Call), d.session.tasks[t]? = some (.stop (.asking c call)) ∧
    call.method = "shutdown" ∧ call.Settled d.now (d.session.connection c)

theorem settled_of_exiting (moves : List Move) : ∀ t c : Nat,
    ((machine setup).after moves).session.tasks[t]? = some (.stop (.exiting c)) →
      (machine setup).Once moves (·.ShutdownSettled c) := by
  refine run_changes (fun moves d => ∀ t c : Nat, d.session.tasks[t]? = some (.stop (.exiting c)) →
    (machine setup).Once moves (·.ShutdownSettled c)) ?_ ?_ moves
  · simp [machine, Session.ofConfig]
  · rintro moves move d d' rfl rfl change ih t c here'
    rcases change.stop_at here' with same | place | ⟨q, s', here, step, -⟩
    · exact (ih t c same).append [move]
    · simp at place
    · obtain ⟨call, rfl, settled⟩ := step.exiting
      have method := named_after moves t _ here c call rfl
      refine Machine.Once.append (Machine.Once.now ?_) [move]
      exact ⟨t, call, here, (Option.some.inj method).symm, settled⟩

/-- `exit` is said after the request to shut down was settled. -/
theorem settled_of_exit (moves : List Move) (own : OnlyStops moves) : ∀ c : Nat,
    .exit ∈ ((machine setup).after moves).session.said c →
      (machine setup).Once moves fun d => d.ShutdownSettled c ∧ .exit ∉ d.session.said c := by
  refine run_changes_of_onlyStops (fun moves d => ∀ c : Nat, .exit ∈ d.session.said c →
    (machine setup).Once moves fun d => d.ShutdownSettled c ∧ .exit ∉ d.session.said c) ?_ ?_ moves own
  · simp [machine, Session.ofConfig, Session.said, Session.connection, farewells]
  · rintro moves move d d' rfl rfl own change ih c word
    rcases change.mem_said (mannered_after moves own) word with before | ⟨t, task, here, turn⟩
    · exact (ih c before).append [move]
    · cases turn
      obtain ⟨earlier, later, rfl, t', call, there, rest⟩ := settled_of_exiting moves t c here
      refine Machine.Once.append ⟨earlier, later, rfl, ⟨t', call, there, rest⟩, ?_⟩ [move]
      exact (parting_after earlier own.left).exit_unsaid there

/-! ## Documents -/

theorem Change.hushed (change : Change d d') (locked : d.session.Locked)
    (hushed : d.session.Hushed) : d'.session.Hushed := by
  rcases change.cases with ⟨-, moved⟩ | ⟨aside, -⟩
  · exact moved.hushed locked hushed
  · refine ⟨by rw [aside.rest]; exact hushed.halted, fun t task here' holds => ?_⟩
    rcases aside.place t task here' with same | ⟨-, fresh⟩ | ⟨method, params, cancelled, p, -, rfl⟩
    · exact hushed.idle t task same holds
    · cases fresh <;> exact holds
    · exact holds

/-- While a stop asks the server to shut down, nobody tells anything of documents. -/
theorem hushed_of_asking (moves : List Move) : ∀ (t c : Nat) (call : Call),
    ((machine setup).after moves).session.tasks[t]? = some (.stop (.asking c call)) →
      ((machine setup).after moves).session.Hushed := by
  refine run_changes (fun _ d => ∀ (t c : Nat) (call : Call),
    d.session.tasks[t]? = some (.stop (.asking c call)) → d.session.Hushed) ?_ ?_ moves
  · simp [machine, Session.ofConfig]
  · rintro moves move d d' rfl rfl change ih t c call here'
    have locked := @locked_after setup moves
    refine change.hushed locked ?_
    rcases change.stop_at here' with same | place | ⟨q, s', here, step, -⟩
    · exact ih t c call same
    · simp at place
    · rcases step.asking with ⟨call₀, rfl⟩ | ⟨halting, free⟩
      · exact ih t c call₀ here
      · exact ⟨halted_after moves t _ here halting, fun i x there => locked.free free there⟩

/-- Once a server was asked to shut down, nobody tells anything of documents. -/
theorem hushed_of_shutdown (moves : List Move) (own : OnlyStops moves) : ∀ c : Nat,
    .shutdown ∈ ((machine setup).after moves).session.said c →
      ((machine setup).after moves).session.Hushed := by
  refine run_changes_of_onlyStops (fun _ d => ∀ c : Nat, .shutdown ∈ d.session.said c →
    d.session.Hushed) ?_ ?_ moves own
  · simp [machine, Session.ofConfig, Session.said, Session.connection, farewells]
  · rintro moves move d d' rfl rfl own change ih c word
    refine change.hushed (locked_after moves) ?_
    rcases change.mem_said (mannered_after moves own) word with before | ⟨t, task, here, turn⟩
    · exact ih c before
    · cases turn
      exact hushed_of_asking moves t c _ here

/-- A message may follow another: nothing about documents follows `shutdown`. -/
def MayFollow (m n : Message) : Prop :=
  m.farewell? = some .shutdown → n.documentNotification? = none

theorem mayFollow_after (moves : List Move) (own : OnlyStops moves) : ∀ c : Nat,
    (((machine setup).after moves).session.connection c).sent.Pairwise MayFollow := by
  refine run_changes_of_onlyStops (fun _ d => ∀ c : Nat,
    (d.session.connection c).sent.Pairwise MayFollow) ?_ ?_ moves own
  · simp [machine, Session.ofConfig, Session.connection]
  · rintro moves move d d' rfl rfl own change ih c
    obtain ⟨first, answers, split, may⟩ := change.wrote c
    have answer : ∀ n ∈ answers.map Message.response, n.documentNotification? = none := by
      intro n among
      obtain ⟨r, -, rfl⟩ := List.mem_map.mp among
      rfl
    rw [split]
    refine List.pairwise_append.mpr ⟨ih c, List.pairwise_append.mpr ⟨?_, ?_, ?_⟩, ?_⟩
    · cases first <;> simp
    · exact List.pairwise_of_forall_mem_list fun _ _ n among _ => answer n among
    · exact fun _ _ n among _ => answer n among
    · intro m past n among shutdown
      rcases List.mem_append.mp among with new | new
      · obtain ⟨-, t, task, here, writes⟩ := may n (Option.mem_toList.mp new)
        have word : .shutdown ∈ ((machine setup).after moves).session.said c :=
          List.mem_filterMap.mpr ⟨m, past, shutdown⟩
        exact writes.untold ((hushed_of_shutdown moves own c word).idle t task here)
      · exact answer n new

/-! ## The result -/

/-- **Orderly shutdown.**  However many stops, and whatever else, take their turns, as long as no user asks
    the server to shut down with a request of his own, on each connection:

    * `shutdown` and `exit` are written once each at most, and in this order;
    * they are written only when a stop has found the session running;
    * when `exit` is written, the request `shutdown` was settled before: it has its outcome;
    * nothing about documents is written after `shutdown`. -/
theorem orderly_shutdown (setup : Setup) (moves : List Move) (c : Nat)
    (own : ∀ params cancelled, Move.request "shutdown" params cancelled ∉ moves) :
    let sent := (((machine setup).after moves).session.connection c).sent
    (farewells sent).Sublist [.shutdown, .exit] ∧
      (farewells sent ≠ [] → ∃ t, StoppedRunning setup moves t) ∧
      (.exit ∈ farewells sent → (machine setup).Once moves fun d =>
        d.ShutdownSettled c ∧ .exit ∉ farewells (d.session.connection c).sent) ∧
      sent.Pairwise fun m n =>
        m.farewell? = some .shutdown → n.documentNotification? = none := by
  intro sent
  refine ⟨(parting_after moves own).ordered c, fun some => ?_, settled_of_exit moves own c,
    mayFollow_after moves own c⟩
  obtain ⟨w, word⟩ := List.exists_mem_of_ne_nil _ some
  exact stoppedRunning_of_said moves own c w word

/-- Two stops take turns in a session that runs, and the server agrees to shut down. -/
def leaving : List Move :=
  let result : Json := .obj [("capabilities", .obj [("textDocumentSync", .int 1)])]
  [.start] ++ goesOn 6 ++
    [.feed 0 (Utf8.encodeString (Message.response (.success (.number 1) result)).frame),
      .act (.reader 0), .act (.reader 0)] ++
    goesOn 6 ++ [.stop, .stop, .act (.task 3), .act (.task 2), .act (.task 3), .act (.task 3),
      .act (.task 2), .act (.task 3), .act (.task 3),
      .feed 0 (Utf8.encodeString (Message.response (.success (.number 2) .null)).frame),
      .act (.reader 0), .act (.reader 0), .act (.task 3), .act (.task 3)]

/-- One of the stops says goodbye, for both. -/
theorem orderly_shutdown_leaving :
    farewells (((machine agreeing).after leaving).session.connection 0).sent = [.shutdown, .exit] ∧
      (∃ t, StoppedRunning agreeing leaving t) ∧
      (machine agreeing).Once leaving fun d =>
        d.ShutdownSettled 0 ∧ .exit ∉ farewells (d.session.connection 0).sent := by
  have own : ∀ params cancelled, Move.request "shutdown" params cancelled ∉ leaving := by
    simp [leaving, goesOn]
  have both : farewells (((machine agreeing).after leaving).session.connection 0).sent =
      [.shutdown, .exit] := by decide +kernel
  obtain ⟨-, won, settled, -⟩ := orderly_shutdown agreeing leaving 0 own
  exact ⟨both, won (by simp [both]), settled (by simp [both])⟩

end Scene

end LanguageClient
