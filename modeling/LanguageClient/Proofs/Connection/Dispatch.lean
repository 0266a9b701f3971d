import LanguageClient.Proofs.Connection.Cancellation
import LanguageClient.Proofs.Connection.Round
import LanguageClient.Proofs.Connection.Termination
/-!
# Messages are dispatched in order

A read loop has one message in hand at most.  What it has dispatched, with the message in hand, is
what it has heard (`dispatched_add`), and every request that has a handler has its job, in this order
(`requests_after`).  The loop does not depend on what becomes of the jobs: it waits for a frame, for the
handler of a notification, or for the writer when nobody handles a request, and leaves only when it is
asked to or the stream ends (`Reason`).

The handler of a notification is run by the loop itself, and takes the loop with it when it crashes.
The handler of a request runs in its job, which may begin after later messages were dispatched.
-/

namespace LanguageClient

namespace Connection

variable {c c' : Connection} {e : LoopEvent}

theorem errand?_of_isDue {p : ReadPhase} (due : p.isDue = true) :
    [p].filterMap ReadPhase.errand? = p.errand?.toList := by
  cases p <;> simp_all [ReadPhase.isDue, ReadPhase.errand?]

/-- A message is in hand from when it was heard until it is dispatched. -/
theorem Round.errands (round : Round c e c') (silent : c.listening = false → c.readPhase = .idle) :
    e.dispatched?.toList.filterMap ReadPhase.errand? ++ c'.readPhase.errand?.toList =
      c.readPhase.errand?.toList ++ e.heard?.toList.filterMap errandOf := by
  cases round with
  | apart _ place => simp [place, LoopEvent.dispatched?, LoopEvent.heard?]
  | asked | came | hungUp => simp [LoopEvent.dispatched?, LoopEvent.heard?, beginClose, feed, hangUp]
  | began still => simp [silent still, LoopEvent.dispatched?, LoopEvent.heard?, ReadPhase.errand?]
  | took m reader place =>
    -- a loop that reads has nothing in hand
    have none : ReadPhase.errand? .reading = none := rfl
    simp only [place, none, LoopEvent.dispatched?, LoopEvent.heard?]
    change (phaseFor m).errand?.toList = [Except.ok m].filterMap errandOf
    cases errand : (phaseFor m).errand? <;> simp [errandOf, errand]
  | skipped e reader place =>
    simp [place, LoopEvent.dispatched?, LoopEvent.heard?, ReadPhase.errand?, errandOf]
  | routed r place =>
    simp only [place, LoopEvent.dispatched?, LoopEvent.heard?]
    split <;> simp [ReadPhase.errand?]
  | dispatched due _ _ place =>
    -- what was dispatched is out of hand, also while its handler runs
    have done : c'.readPhase.errand? = none := by
      rcases place with place | ⟨n, -, place⟩ <;> simp [place, ReadPhase.errand?]
    simp [done, LoopEvent.dispatched?, LoopEvent.heard?, errand?_of_isDue due]
  | returned n place | crashed n place =>
    simp [place, LoopEvent.dispatched?, LoopEvent.heard?, ReadPhase.errand?]
  | left why reader place =>
    simp [place, leave, LoopEvent.dispatched?, LoopEvent.heard?, ReadPhase.errand?]
  | drained place => simp [place, LoopEvent.dispatched?, LoopEvent.heard?, ReadPhase.errand?]
  | released place _ _ ended =>
    simp [place, ended, LoopEvent.dispatched?, LoopEvent.heard?, ReadPhase.errand?]

/-! ## Jobs -/

/-- The requests of the server that have a job. -/
def requested (c : Connection) : List Request :=
  c.jobs.map (·.request)

theorem requested_set {j : Nat} {job : Job} (here : c.jobs[j]? = some job) (phase : JobPhase) :
    (c.jobs.set j { job with phase }).map (·.request) = c.requested := by
  obtain ⟨short, rfl⟩ := List.getElem?_eq_some_iff.mp here
  rw [List.map_set, requested]
  apply List.ext_getElem (by simp)
  intro i _ _
  by_cases same : j = i
  · subst same
    simp
  · simp [List.getElem_set_ne same]

theorem requested_mapIdx {f : Nat → Job → Prop} [∀ j job, Decidable (f j job)] :
    (c.jobs.mapIdx fun j job => if f j job then { job with cancelled := true } else job).map
      (·.request) = c.requested := by
  apply List.ext_getElem (by simp [requested])
  intro i _ _
  simp only [requested, List.getElem_map, List.getElem_mapIdx]
  split <;> rfl

/-- A job is new when the loop has dispatched its request. -/
theorem Turn.requested (turn : c.Turn c') (silent : c.listening = false → c.readPhase = .idle) :
    c'.requested = c.requested ++ if c'.readPhase = c.readPhase then [] else c.readPhase.served := by
  -- a turn that leaves the requests alone, made by a loop that has no job to start, or by another
  have quiet : c'.requested = c.requested → c.readPhase.served = [] ∨ c'.readPhase = c.readPhase →
      c'.requested = c.requested ++ if c'.readPhase = c.readPhase then [] else c.readPhase.served := by
    rintro same (none | stays)
    · simp [same, none]
    · simp [same, stays]
  cases turn with
  | aside h =>
    refine quiet (by simp [Connection.requested, h.jobs]) ?_
    rcases h.readPhase with same | ⟨busy, -⟩
    · exact Or.inr same
    · refine Or.inl ?_
      cases place : c.readPhase <;> simp_all [ReadPhase.isPlain, ReadPhase.served]
  | admitted request place => simp [Connection.requested, spawnJob, place, ReadPhase.served]
  | listened still => exact quiet rfl (Or.inl (by rw [silent still]; rfl))
  | took _ _ place | routed _ place | refused _ place | left _ place | drained place =>
    exact quiet rfl (Or.inl (by rw [place]; rfl))
  | cancelled id place | released place => exact quiet requested_mapIdx (Or.inl (by rw [place]; rfl))
  | started j job here | returned j job outcome here | removed j job outcome here
  | answered j job response here => exact quiet (requested_set here _) (Or.inr rfl)

/-- The loop starts a job for what it dispatches, and nothing else. -/
theorem Round.served (round : Round c e c') (silent : c.listening = false → c.readPhase = .idle) :
    (if c'.readPhase = c.readPhase then [] else c.readPhase.served) =
      e.dispatched?.toList.flatMap ReadPhase.served := by
  cases round with
  | began still => simp [silent still, ReadPhase.served, LoopEvent.dispatched?]
  | dispatched due _ _ place =>
    have other : c'.readPhase ≠ c.readPhase := by
      rcases place with place | ⟨n, before, place⟩
      · rw [place]
        intro same
        simp [← same, ReadPhase.isDue] at due
      · simp [before, place]
    simp [other, LoopEvent.dispatched?]
  | apart _ place => simp [place, LoopEvent.dispatched?]
  | asked | came | hungUp => simp [LoopEvent.dispatched?, beginClose, feed, hangUp]
  | took _ _ place | skipped _ _ place | routed _ place | returned _ place | crashed _ place
  | left _ _ place | drained place | released place =>
    simp [place, ReadPhase.served, LoopEvent.dispatched?]

/-! ## The end of a loop -/

theorem phaseFor_open (m : Message) : (phaseFor m).isEnding = false ∧ phaseFor m ≠ .crashed := by
  cases m with
  | request r => simp [phaseFor, ReadPhase.isEnding]
  | response r => cases id : r.id <;> simp [phaseFor, id, ReadPhase.isEnding]
  | notification n =>
    simp only [phaseFor]
    split
    · split <;> simp [ReadPhase.isEnding]
    · simp [ReadPhase.isEnding]

/-- A loop has left, has crashed, or was asked to end, only by an event that says so. -/
theorem Round.gone (round : Round c e c') :
    (c'.readPhase.isEnding = true → c.readPhase.isEnding = true ∨ ∃ why, e = .left why) ∧
    (c'.readPhase = .crashed → c.readPhase = .crashed ∨ ∃ n, e = .crashed n) ∧
    (c'.shutdown = true → c.shutdown = true ∨ e = .asked) := by
  -- an event after which the loop is neither at its end nor crashed
  have goes : c'.readPhase.isEnding = false → c'.readPhase ≠ .crashed → c'.shutdown = c.shutdown →
      (c'.readPhase.isEnding = true → c.readPhase.isEnding = true ∨ ∃ why, e = .left why) ∧
      (c'.readPhase = .crashed → c.readPhase = .crashed ∨ ∃ n, e = .crashed n) ∧
      (c'.shutdown = true → c.shutdown = true ∨ e = .asked) := by
    intro open' sound shutdown
    refine ⟨?_, ?_, ?_⟩
    · intro ending
      simp [open'] at ending
    · intro crashed
      exact absurd crashed sound
    · intro closing
      exact Or.inl (shutdown ▸ closing)
  cases round with
  | apart _ place shutdown =>
    exact ⟨fun h => Or.inl (place ▸ h), fun h => Or.inl (place ▸ h), fun h => Or.inl (shutdown ▸ h)⟩
  | asked => exact ⟨Or.inl, Or.inl, fun _ => Or.inr rfl⟩
  | came | hungUp => exact ⟨Or.inl, Or.inl, Or.inl⟩
  | left why => exact ⟨fun _ => Or.inr ⟨why, rfl⟩, fun h => by simp [leave] at h, Or.inl⟩
  | crashed n => exact ⟨fun h => by simp [ReadPhase.isEnding] at h, fun _ => Or.inr ⟨n, rfl⟩, Or.inl⟩
  | began | returned => exact goes rfl (by simp) rfl
  | skipped _ _ place => exact goes (by rw [place]; rfl) (by simp [place]) rfl
  | took m => exact goes (phaseFor_open m).1 (phaseFor_open m).2 rfl
  | routed r place =>
    refine goes ?_ ?_ rfl
    · dsimp only
      split <;> rfl
    · dsimp only
      split <;> simp
  | dispatched _ _ shutdown place =>
    rcases place with place | ⟨n, -, place⟩
    · exact goes (by rw [place]; rfl) (by simp [place]) shutdown
    · exact goes (by rw [place]; rfl) (by simp [place]) shutdown
  | drained place => exact ⟨fun _ => Or.inl (by rw [place]; rfl), fun h => by simp at h, Or.inl⟩
  | released place _ shutdown ended =>
    exact ⟨fun _ => Or.inl (by rw [place]; rfl), fun h => by simp [ended] at h,
      fun h => Or.inl (shutdown ▸ h)⟩

/-- A loop that its handler has taken with it does nothing more. -/
theorem Round.stays_crashed (round : Round c e c') (silent : c.listening = false → c.readPhase = .idle)
    (crashed : c.readPhase = .crashed) : c'.readPhase = .crashed ∧ e.dispatched? = none := by
  cases round with
  | apart _ place => exact ⟨place.trans crashed, rfl⟩
  | asked | came | hungUp => exact ⟨crashed, rfl⟩
  | began still => simp [silent still] at crashed
  | dispatched due => simp [crashed, ReadPhase.isDue] at due
  | took _ _ place | skipped _ _ place | routed _ place | returned _ place | crashed _ place
  | left _ _ place | drained place | released place => simp [crashed] at place

/-- Where a loop stands that cannot take a step. -/
theorem stepRead_waits (none : c.stepRead = none) :
    c.readPhase = .idle ∨ (c.readPhase = .reading ∧ c.shutdown = false ∧ c.reader.read = .starved) ∨
      (∃ n, c.readPhase = .handling n ∧
        c.finishHandling = { c with readPhase := .reading }) ∨
      (∃ request, c.readPhase = .refusing request ∧ c.busy = true) ∨
      c.readPhase = .ended ∨ c.readPhase = .crashed := by
  unfold stepRead at none
  cases place : c.readPhase with
  | idle => exact Or.inl rfl
  | reading =>
    simp only [place] at none
    refine Or.inr (Or.inl ⟨rfl, ?_⟩)
    split at none
    · simp at none
    · rename_i open'
      refine ⟨by simpa using open', ?_⟩
      cases outcome : c.reader.read with
      | starved => rfl
      | failed e reader =>
        simp only [outcome] at none
        split at none <;> simp at none
      | ended reader | read m reader => simp [outcome] at none
  | handling n => exact Or.inr (Or.inr (Or.inl ⟨n, rfl, by simp [finishHandling, place]⟩))
  | refusing request =>
    have waits : c.busy = true := by simpa [place] using none
    exact Or.inr (Or.inr (Or.inr (Or.inl ⟨request, rfl, waits⟩)))
  | ended => exact Or.inr (Or.inr (Or.inr (Or.inr (Or.inl rfl))))
  | crashed => exact Or.inr (Or.inr (Or.inr (Or.inr (Or.inr rfl))))
  | settling | dispatching | admitting | cancelling | noticing | draining | releasing =>
    simp [place] at none

end Connection

namespace Channel

variable {name : String} {moves : List Move}

/-! ## Messages in hand, and jobs -/

/-- What was dispatched, with the message in hand, is what was heard. -/
theorem dispatched_add (moves : List Move) :
    (dispatched name moves).filterMap ReadPhase.errand? ++
        ((machine name).after moves).connection.readPhase.errand?.toList =
      (heard name moves).filterMap errandOf := by
  refine (machine name).run_induction (fun moves s =>
    (dispatched name moves).filterMap ReadPhase.errand? ++ s.connection.readPhase.errand?.toList =
      (heard name moves).filterMap errandOf) rfl ?_ moves
  intro moves move h
  have errands := (step_round _ move).errands (@ending_after name moves).silent
  rw [dispatched_concat, heard_concat, after_concat, List.filterMap_append, List.filterMap_append,
    List.append_assoc, errands, ← List.append_assoc, h]

theorem Change.requested {s s' : Channel} (change : Change s s') (ending : Ending s) :
    s'.connection.requested = s.connection.requested ++
      if s'.connection.readPhase = s.connection.readPhase then [] else s.connection.readPhase.served := by
  cases change with
  | turned d turn => exact turn.requested ending.silent
  | closing d aside => exact (Connection.Turn.aside aside).requested ending.silent
  | closed i place place' c here step =>
    obtain ⟨stays, -, jobs⟩ := stepClose_serving step
    rw [if_pos stays, List.append_nil]
    rcases jobs with ⟨jobs, -⟩ | ⟨-, rfl⟩
    · exact congrArg (List.map _) jobs
    · rw [Connection.release_eq]
      exact Connection.requested_mapIdx

/-- Every request that was dispatched and has a handler has its job. -/
theorem requests_after (moves : List Move) :
    ((machine name).after moves).connection.requested =
      (dispatched name moves).flatMap ReadPhase.served := by
  refine (machine name).run_induction (fun moves s =>
    s.connection.requested = (dispatched name moves).flatMap ReadPhase.served) rfl ?_ moves
  intro moves move h
  have ending := @ending_after name moves
  rw [dispatched_concat, after_concat, List.flatMap_append, ← h,
    ← (step_round _ move).served ending.silent]
  exact (step_change _ move).requested ending

/-! ## Why a loop leaves -/

theorem gone_after (moves : List Move) :
    (((machine name).after moves).connection.readPhase.isEnding = true →
      ∃ why, LoopEvent.left why ∈ events name moves) ∧
    (((machine name).after moves).connection.readPhase = .crashed →
      ∃ n, LoopEvent.crashed n ∈ events name moves) ∧
    (((machine name).after moves).connection.shutdown = true → LoopEvent.asked ∈ events name moves) := by
  -- the three memories are kept together, since one round can add to any of them
  refine (machine name).run_induction (fun moves s =>
    (s.connection.readPhase.isEnding = true → ∃ why, LoopEvent.left why ∈ events name moves) ∧
    (s.connection.readPhase = .crashed → ∃ n, LoopEvent.crashed n ∈ events name moves) ∧
    (s.connection.shutdown = true → LoopEvent.asked ∈ events name moves)) ?_ ?_ moves
  · simp [machine, Dialogue.machine, ReadPhase.isEnding]
  · rintro moves move ⟨left, crashed, asked⟩
    obtain ⟨left', crashed', asked'⟩ := (step_round ((machine name).after moves) move).gone
    rw [after_concat, events_concat]
    refine ⟨?_, ?_, ?_⟩
    · intro ending
      rcases left' ending with before | ⟨why, now⟩
      · obtain ⟨why, among⟩ := left before
        exact ⟨why, List.mem_append_left _ among⟩
      · exact ⟨why, by simp [now]⟩
    · intro gone
      rcases crashed' gone with before | ⟨n, now⟩
      · obtain ⟨n, among⟩ := crashed before
        exact ⟨n, List.mem_append_left _ among⟩
      · exact ⟨n, by simp [now]⟩
    · intro closing
      rcases asked' closing with before | now
      · exact List.mem_append_left _ (asked before)
      · simp [now]

/-- Why a loop may leave: it was asked to, it has heard all that there is, or the stream breaks off
    after what it has heard. -/
def Reason (name : String) (moves : List Move) : Leaving → Prop
  | .asked => LoopEvent.asked ∈ events name moves
  | .ended => FrameReader.readAll ((heard name moves).length + 1) (whole name moves) =
      (heard name moves, true)
  | .broken e => e.isMalformed = false ∧
      FrameReader.readAll ((heard name moves).length + 1) (whole name moves) =
        (heard name moves ++ [.error e], false)

theorem reason_of_left (moves : List Move) (orderly : Orderly name moves) {why : Leaving}
    (left : ((machine name).after moves).event (.talk .read rfl) = .left why) :
    Reason name moves why := by
  obtain ⟨now, hears, here⟩ := hears_after moves orderly
  have round := step_round ((machine name).after moves) (.talk .read rfl)
  rw [left] at round
  have place := round.draining_of_left.1
  obtain rfl := here (by rw [place]; rfl)
  have next := hears.readAll_add 1
  generalize ((machine name).after moves).step (.talk .read rfl) = s' at round
  generalize reached : s'.connection = c' at round
  cases round with
  | left _ reader _ leaves =>
    cases why with
    | asked => exact (gone_after moves).2.2 leaves.1
    | ended =>
      have read : ((machine name).after moves).connection.reader.read = .ended reader := leaves
      simpa [Reason, FrameReader.readAll, read] using next
    | broken e => exact ⟨leaves.1, by simpa [FrameReader.readAll, leaves.2] using next⟩

/-- A loop that leaves has set the flag of the end, and is about to drain. -/
theorem drains_of_left {s : Channel} {why : Leaving} (left : s.event (.talk .read rfl) = .left why) :
    (s.step (.talk .read rfl)).connection.terminated = true ∧
      (s.step (.talk .read rfl)).Drains (.talk .read rfl) := by
  have round := step_round s (.talk .read rfl)
  rw [left] at round
  exact ⟨round.draining_of_left.2.2, round.draining_of_left.2.1⟩

/-- What comes is orderly as long as the server has not hung up. -/
theorem orderly_of_open (open' : (whole name moves).stream.ended = false) : Orderly name moves := by
  intro before octets later split
  have none : (events name moves).any LoopEvent.hangsUp = false := open'
  rw [split, List.any_append, Bool.or_eq_false_iff] at none
  exact none.1

theorem Orderly.of_append {later : List Move} (orderly : Orderly name (moves ++ later)) :
    Orderly name moves := by
  induction later using List.reverseRecOn with
  | nil => simpa using orderly
  | append_singleton later move ih =>
    rw [← List.append_assoc] at orderly
    exact ih orderly.of_concat

/-- What has happened has happened with one of the moves. -/
theorem mem_events {e : LoopEvent} (among : e ∈ events name moves) :
    ∃ before move later, moves = before ++ [move] ++ later ∧
      ((machine name).after before).event move = e := by
  induction moves using List.reverseRecOn with
  | nil => simp [events] at among
  | append_singleton moves move ih =>
    rw [events_concat] at among
    rcases List.mem_append.mp among with earlier | now
    · obtain ⟨before, move', later, rfl, event⟩ := ih earlier
      exact ⟨before, move', later ++ [move], by simp, event⟩
    · exact ⟨moves, move, [], by simp, (List.mem_singleton.mp now).symm⟩

/-- Only the read loop itself leaves. -/
theorem read_of_left {s : Channel} {move : Move} {why : Leaving} (left : s.event move = .left why) :
    move = .talk .read rfl := by
  cases move with
  | talk move other =>
    cases move with
    | read => rfl
    | handled crashed =>
      cases place : s.connection.readPhase <;> cases crashed <;> simp [event, place] at left
    | listen => cases listening : s.connection.listening <;> simp [event, listening] at left
    | _ => simp [event] at left
  | readOn =>
    simp only [event] at left
    split at left
    · simp at left
    · split at left <;> simp at left
    · simp at left
  | _ => simp [event] at left

/-- A loop whose handler has crashed dispatches nothing more, whatever happens. -/
theorem dispatched_crashed (crashed : ((machine name).after moves).connection.readPhase = .crashed)
    (more : List Move) : dispatched name (moves ++ more) = dispatched name moves := by
  have stays : ((machine name).after (moves ++ more)).connection.readPhase = .crashed ∧
      dispatched name (moves ++ more) = dispatched name moves := by
    induction more using List.reverseRecOn with
    | nil => simpa using crashed
    | append_singleton more move ih =>
      have silent := (@ending_after name (moves ++ more)).silent
      obtain ⟨place, nothing⟩ := (step_round _ move).stays_crashed silent ih.1
      rw [← List.append_assoc, after_concat, dispatched_concat, nothing]
      exact ⟨place, by simpa using ih.2⟩
  exact stays.2

/-! ## The main result -/

/-- **Messages are dispatched in order.**  In every run in which nothing comes from a server that has
    hung up, whatever comes of the handlers of requests, and in whatever turns:

    * What the read loop has heard is what a reader makes of all that has come, in this order, and it
      goes on where the reader stands then.
    * What it has dispatched, with the message in hand, is what it has heard; the requests with a
      handler have their jobs in this order.
    * The loop waits only before anybody listens, for octets when all that has come is heard, for the
      handler of a notification that runs, for the writer when it has to refuse a request and the
      server does not take what is written, or when it has ended or a handler of a notification has
      crashed.  Its steps are as many as what has come is worth, so that it gets there.
    * It ends only when it has left, and it leaves only because somebody closes the connection, at the
      clean end of the stream, when everything is heard, or where the stream breaks off.  It sets the
      flag of the end then, and drains the table of requests with its next step.
    * Who waited in the table then has the response that tells of the end, and fails with its error,
      unless it could not write its request either. -/
theorem messages_dispatched_in_order (name : String) (moves : List Move) (orderly : Orderly name moves) :
    let run := machine name
    let s := run.after moves
    let c := s.connection
    let read : Move := .talk .read rfl
    (FrameReader.readAll (heard name moves).length (whole name moves) = (heard name moves, false) ∧
      (c.readPhase.isEnding = false →
        c.reader = FrameReader.next^[(heard name moves).length] (whole name moves))) ∧
    ((dispatched name moves).filterMap ReadPhase.errand? ++ c.readPhase.errand?.toList =
        (heard name moves).filterMap errandOf ∧
      c.requested = (dispatched name moves).flatMap ReadPhase.served) ∧
    (c.stepRead = none →
      c.readPhase = .idle ∨
      (c.readPhase = .reading ∧ c.shutdown = false ∧ ∀ n,
        FrameReader.readAll ((heard name moves).length + n) (whole name moves) = (heard name moves, false)) ∨
      (∃ n, c.readPhase = .handling n ∧
        (s.step (.talk (.handled false) rfl)).connection = { c with readPhase := .reading }) ∨
      (∃ request, c.readPhase = .refusing request ∧ c.busy = true) ∨
      c.readPhase = .ended ∨ ∃ n, LoopEvent.crashed n ∈ events name moves) ∧
    (events name moves).countP LoopEvent.isStep ≤ 4 + 3 * (whole name moves).stream.size ∧
    (c.readPhase.isEnding = true → ∃ before later why, moves = before ++ [read] ++ later ∧
      (run.after before).event read = .left why) ∧
    (∀ before later why, moves = before ++ [read] ++ later → (run.after before).event read = .left why →
      Reason name before why ∧ c.terminated = true ∧ (run.after (before ++ [read])).Drains read) ∧
    ∀ before later, moves = before ++ [read] ++ later → (run.after before).Drains read →
      c.terminated = true ∧ c.pending = [] ∧
      ∀ i k call, (run.after before).dialogue.family i = some call →
        (run.after before).dialogue.Waits i k → call.error? = none →
        (run.after (before ++ [read])).connection.replies.get? k =
          some (.failure (.number (UInt64.ofNat k))
            { code := ErrorCode.serverTerminated
              message := name ++ " language server terminated unexpectedly" }) ∧
        ∀ result, s.dialogue.outcome? i = some result →
          result = .error (.terminated name) ∨
            call.phase = .registered k ∧ ∃ e : ClientError, e.Unwritten ∧ result = .error e := by
  intro run s c read
  -- what was heard so far is what the reader makes of all that has come
  obtain ⟨now, hears, here⟩ := hears_after moves orderly
  refine ⟨⟨hears.1, fun open' => (here open').trans hears.2.symm⟩,
    ⟨dispatched_add moves, requests_after moves⟩, fun none => ?_, ?_, fun ending => ?_, ?_, ?_⟩
  · rcases Connection.stepRead_waits none with
      idle | ⟨place, open', starved⟩ | ⟨n, place, finished⟩ | waits | ended | crashed
    · exact Or.inl idle
    · obtain rfl := here (by rw [place]; rfl)
      refine Or.inr (Or.inl ⟨place, open', fun n => ?_⟩)
      rw [hears.readAll_add n, FrameReader.readAll_starved starved, List.append_nil]
    · exact Or.inr (Or.inr (Or.inl ⟨n, place, finished⟩))
    · exact Or.inr (Or.inr (Or.inr (Or.inl waits)))
    · exact Or.inr (Or.inr (Or.inr (Or.inr (Or.inl ended))))
    · exact Or.inr (Or.inr (Or.inr (Or.inr (Or.inr ((gone_after moves).2.1 crashed)))))
  · have steps := @steps_add name moves
    omega
  · obtain ⟨why, among⟩ := (gone_after moves).1 ending
    -- the loop ends at a moment of the run, and the reader of that moment says why
    obtain ⟨before, move, later, split, left⟩ := mem_events among
    obtain rfl := read_of_left left
    exact ⟨before, later, why, split, left⟩
  · rintro before later why rfl left
    obtain ⟨past, drains⟩ := drains_of_left left
    rw [← after_concat] at past drains
    have orderly' : Orderly name before := by
      rw [List.append_assoc] at orderly
      exact orderly.of_append
    exact ⟨reason_of_left before orderly' left, terminated_from _ past later, drains⟩
  · rintro before later rfl drains
    -- from the draining on, nobody is put into the table again
    have finish := over_from drains later
    refine ⟨finish.terminated, finish.pending, fun i k call here waits sound => ⟨?_, fun result => ?_⟩⟩
    · exact (told_at drains waits).trans (congrArg some (terminationResponse_named (name_after _) k))
    · exact outcome_of_told drains here waits sound later

/-- A request and a notification that come together. -/
def asking : Request := { id := .number 1, method := "a" }

def telling : Notification := { method := "n" }

/-- Both have a handler, and the read loop takes one after the other. -/
def overtaking : List Move :=
  [.of (.handleRequests "a"), .of (.handleNotifications "n"), .of .listen,
    .of (.feed (Utf8.encodeString ((Message.request asking).frame ++ (Message.notification telling).frame))),
    .of .read, .of .read, .of .read, .of .read, .of .read]

theorem after_overtaking :
    (whole "rust" overtaking).stream.ended = false ∧
    heard "rust" overtaking = [.ok (.request asking), .ok (.notification telling)] ∧
    ((machine "rust").after overtaking).connection.readPhase = .handling telling ∧
    ((machine "rust").after overtaking).connection.jobs =
      [{ request := asking, phase := .spawned }] := by
  decide +kernel

/-- The handler of the notification runs before that of the request has begun. -/
theorem messages_dispatched_in_order_overtaking :
    Orderly "rust" overtaking ∧
    (dispatched "rust" overtaking).filterMap ReadPhase.errand? =
      [.dispatching asking, .noticing telling] ∧
    ((machine "rust").after overtaking).connection.readPhase = .handling telling ∧
    ((machine "rust").after overtaking).connection.jobs =
      [{ request := asking, phase := .spawned }] := by
  obtain ⟨open', heard, place, jobs⟩ := after_overtaking
  have orderly : Orderly "rust" overtaking := orderly_of_open open'
  have errands : (dispatched "rust" overtaking).filterMap ReadPhase.errand? ++
      ((machine "rust").after overtaking).connection.readPhase.errand?.toList =
        (Channel.heard "rust" overtaking).filterMap errandOf :=
    (messages_dispatched_in_order "rust" overtaking orderly).2.1.1
  rw [place, heard] at errands
  exact ⟨orderly, (List.append_nil _).symm.trans errands, place, jobs⟩

/-- A request of the client waits, and two notifications come; the handler of the first one crashes. -/
def crashing : List Move :=
  [.of (.handleNotifications "n"), .of .listen, .of (.request "m" none false), .of (.call 0),
    .of (.call 0), .of (.call 0),
    .of (.feed (Utf8.encodeString
      ((Message.notification telling).frame ++ (Message.notification telling).frame))),
    .of .read, .of .read, .of (.handled true)]

theorem after_crashing :
    FrameReader.readAll 2 (whole "rust" crashing) =
      ([.ok (.notification telling), .ok (.notification telling)], false) ∧
    dispatched "rust" crashing = [.noticing telling] ∧
    ((machine "rust").after crashing).connection.readPhase = .crashed ∧
    ((machine "rust").after crashing).connection.terminated = false ∧
    ((machine "rust").after crashing).connection.pending = [1] := by
  decide +kernel

/-- A handler can stop dispatch: after that of a notification has crashed the notification that follows
    is not dispatched, whatever happens, and the request that waits is not told of the end. -/
theorem undispatched_after_crash :
    FrameReader.readAll 2 (whole "rust" crashing) =
      ([.ok (.notification telling), .ok (.notification telling)], false) ∧
    ((machine "rust").after crashing).connection.terminated = false ∧
    ((machine "rust").after crashing).connection.pending = [1] ∧
    ∀ more, dispatched "rust" (crashing ++ more) = [.noticing telling] := by
  obtain ⟨both, once, crashed, live, waits⟩ := after_crashing
  refine ⟨both, live, waits, fun more => ?_⟩
  rw [dispatched_crashed crashed more, once]

end Channel

end LanguageClient
