import LanguageClient.Proofs.Connection.Channel
import LanguageClient.Proofs.Wire.Progress
/-!
# The rounds of a read loop

A read loop takes a frame, deals with the message in it, and takes the next.  `event` tells of every
move what it has to do with that, and `events` what has happened to the loop in a run; `Round` says
once what each event does to the reader and to the loop.

Two accounts are kept of a run.  What was heard is what the reader makes of all that has come, from
its beginning (`hears_after`); and what was dispatched, with the message in hand, is what was heard
(`dispatched_after`).  Both are read off `Round`, event by event.
-/

namespace LanguageClient

/-- Why a read loop leaves. -/
inductive Leaving where
  /-- Somebody closes the connection. -/
  | asked
  | ended
  | broken (e : FrameError)

/-- What a move has to do with the read loop. -/
inductive LoopEvent where
  | apart
  | asked
  | came (octets : List UInt8)
  | hungUp
  | began
  | heard (result : Except FrameError Message)
  /-- What is to be done about a message in hand is found out, or the end goes on. -/
  | went
  /-- The message in hand is dealt with, from the place where the loop stood. -/
  | dispatched (place : ReadPhase)
  /-- The handler of a notification has ended. -/
  | returned (n : Notification)
  | crashed (n : Notification)
  | left (why : Leaving)

namespace LoopEvent

/-- The chunks that come with an event. -/
def chunks : LoopEvent → List (List UInt8)
  | .came octets => if octets.isEmpty then [] else [octets]
  | _ => []

def hangsUp : LoopEvent → Bool
  | .hungUp => true
  | _ => false

def heard? : LoopEvent → Option (Except FrameError Message)
  | .heard result => some result
  | _ => none

def dispatched? : LoopEvent → Option ReadPhase
  | .dispatched place => some place
  | _ => none

/-- Whether the loop does something itself, or a handler for which it waits. -/
def isStep : LoopEvent → Bool
  | .apart | .asked | .came _ | .hungUp | .began => false
  | _ => true

variable {e : LoopEvent}

/-- No empty chunk comes: it would look like the end of the stream. -/
theorem nil_notMem_chunks (e : LoopEvent) : [] ∉ e.chunks := by
  cases e with
  | came octets =>
    cases octets <;> simp [chunks]
  | _ => simp [chunks]

end LoopEvent

/-- What the message is for with which the loop is busy; `phaseFor` gives it for every message. -/
def ReadPhase.errand? : ReadPhase → Option ReadPhase
  | .settling id r => some (.settling id r)
  | .dispatching r | .refusing r | .admitting r => some (.dispatching r)
  | .cancelling id => some (.cancelling id)
  | .noticing n => some (.noticing n)
  | _ => none

/-- Whether the message in hand is dealt with by the next step of the loop. -/
def ReadPhase.isDue : ReadPhase → Bool
  | .settling .. | .refusing _ | .admitting _ | .cancelling _ | .noticing _ => true
  | _ => false

/-- The request for which the loop is about to start a job. -/
def ReadPhase.served : ReadPhase → List Request
  | .admitting r => [r]
  | _ => []

/-- How many steps the loop takes at most until it waits for a frame, and the one to take it; it does
    not wait any more when it ends. -/
def ReadPhase.rank : ReadPhase → Nat
  | .dispatching _ | .noticing _ => 5
  | .idle | .settling .. | .refusing _ | .admitting _ | .cancelling _ | .handling _ => 4
  | .reading => 3
  | .draining => 2
  | .releasing => 1
  | .ended | .crashed => 0

/-- What is to be done about a frame. -/
def errandOf : Except FrameError Message → Option ReadPhase
  | .ok m => (Connection.phaseFor m).errand?
  | .error _ => none

namespace Connection

variable {c c' : Connection}

/-- What the next step of the read loop is. -/
def lap (c : Connection) : LoopEvent :=
  match c.readPhase with
  | .idle | .handling _ | .ended | .crashed => .apart
  | .reading =>
    if c.shutdown then .left .asked
    else
      match c.reader.read with
      | .starved => .apart
      | .ended _ => .left .ended
      | .failed e _ => if e.isMalformed then .heard (.error e) else .left (.broken e)
      | .read m _ => .heard (.ok m)
  | .dispatching _ | .draining | .releasing => .went
  | .refusing _ => if c.busy then .apart else .dispatched c.readPhase
  | .settling .. | .admitting _ | .cancelling _ | .noticing _ => .dispatched c.readPhase

/-- The reason for which a loop leaves, and its reader then. -/
def Leaves (c : Connection) : Leaving → FrameReader → Prop
  | .asked, reader => c.shutdown = true ∧ reader = c.reader
  | .ended, reader => c.reader.read = .ended reader
  | .broken e, reader => e.isMalformed = false ∧ c.reader.read = .failed e reader

/-- What each event does to the reader and to the loop. -/
inductive Round (c : Connection) : LoopEvent → Connection → Prop where
  | apart {c' : Connection} (reader : c'.reader = c.reader) (place : c'.readPhase = c.readPhase)
      (shutdown : c'.shutdown = c.shutdown) : Round c .apart c'
  | asked : Round c .asked c.beginClose
  | came (octets : List UInt8) : Round c (.came octets) (c.feed octets)
  | hungUp : Round c .hungUp c.hangUp
  | began (silent : c.listening = false) :
      Round c .began { c with listening := true, readPhase := .reading }
  | took (m : Message) (reader : FrameReader) (place : c.readPhase = .reading)
      (read : c.reader.read = .read m reader) :
      Round c (.heard (.ok m)) { c with reader, readPhase := phaseFor m }
  | skipped (e : FrameError) (reader : FrameReader) (place : c.readPhase = .reading)
      (malformed : e.isMalformed = true) (read : c.reader.read = .failed e reader) :
      Round c (.heard (.error e)) { c with reader }
  | routed (request : Request) (place : c.readPhase = .dispatching request) :
      Round c .went { c with
        readPhase := if c.requestMethods.contains request.method then .admitting request
          else .refusing request }
  | dispatched {c' : Connection} (due : c.readPhase.isDue = true) (reader : c'.reader = c.reader)
      (shutdown : c'.shutdown = c.shutdown)
      (place : c'.readPhase = .reading ∨ ∃ n, c.readPhase = .noticing n ∧ c'.readPhase = .handling n) :
      Round c (.dispatched c.readPhase) c'
  | returned (n : Notification) (place : c.readPhase = .handling n) :
      Round c (.returned n) { c with readPhase := .reading }
  | crashed (n : Notification) (place : c.readPhase = .handling n) :
      Round c (.crashed n) { c with readPhase := .crashed }
  | left (why : Leaving) (reader : FrameReader) (place : c.readPhase = .reading)
      (leaves : c.Leaves why reader) : Round c (.left why) { c with reader }.leave
  | drained (place : c.readPhase = .draining) : Round c .went { c.drain with readPhase := .releasing }
  | released {c' : Connection} (place : c.readPhase = .releasing) (reader : c'.reader = c.reader)
      (shutdown : c'.shutdown = c.shutdown) (ended : c'.readPhase = .ended) : Round c .went c'

theorem Round.refl (c : Connection) : Round c .apart c :=
  .apart rfl rfl rfl

theorem settle_loop (c : Connection) (id : RequestId) (r : Response) :
    (c.settle id r).reader = c.reader ∧ (c.settle id r).shutdown = c.shutdown := by
  rcases c.settle_cases id r with ⟨k, -, -, settled⟩ | ⟨-, settled⟩
  · rw [settled]
    exact ⟨rfl, rfl⟩
  · rw [settled]
    exact ⟨rfl, rfl⟩

theorem tryWrite_loop (c : Connection) (m : Message) :
    (c.tryWrite m).reader = c.reader ∧ (c.tryWrite m).shutdown = c.shutdown ∧
      (c.tryWrite m).readPhase = c.readPhase := by
  rw [tryWrite_eq]
  exact ⟨rfl, rfl, rfl⟩

theorem lap_reading (place : c.readPhase = .reading) :
    (c.stepRead = none ↔ c.lap = .apart) ∧ c.Round c.lap (c.stepRead.getD c) := by
  -- the flag is looked at before the reader
  cases asked : c.shutdown with
  | true =>
    have stepped : c.stepRead = some c.leave := by simp [stepRead, place, asked]
    have lap : c.lap = .left .asked := by simp [lap, place, asked]
    rw [stepped, lap]
    exact ⟨by simp, .left .asked c.reader place ⟨asked, rfl⟩⟩
  | false =>
    cases read : c.reader.read with
    | starved =>
      have stepped : c.stepRead = none := by simp [stepRead, place, asked, read]
      have lap : c.lap = .apart := by simp [lap, place, asked, read]
      rw [stepped, lap]
      exact ⟨by simp, .refl c⟩
    | ended reader =>
      have stepped : c.stepRead = some { c with reader }.leave := by
        simp [stepRead, place, asked, read]
      have lap : c.lap = .left .ended := by simp [lap, place, asked, read]
      rw [stepped, lap]
      exact ⟨by simp, .left .ended reader place read⟩
    | failed e reader =>
      cases malformed : e.isMalformed with
      | true =>
        have stepped : c.stepRead = some { c with reader } := by
          simp [stepRead, place, asked, read, malformed]
        have lap : c.lap = .heard (.error e) := by simp [lap, place, asked, read, malformed]
        rw [stepped, lap]
        exact ⟨by simp, .skipped e reader place malformed read⟩
      | false =>
        have stepped : c.stepRead = some { c with reader }.leave := by
          simp [stepRead, place, asked, read, malformed]
        have lap : c.lap = .left (.broken e) := by simp [lap, place, asked, read, malformed]
        rw [stepped, lap]
        exact ⟨by simp, .left (.broken e) reader place ⟨malformed, read⟩⟩
    | read m reader =>
      have stepped : c.stepRead = some { c with reader, readPhase := phaseFor m } := by
        simp [stepRead, place, asked, read]
      have lap : c.lap = .heard (.ok m) := by simp [lap, place, asked, read]
      rw [stepped, lap]
      exact ⟨by simp, .took m reader place read⟩

/-- A loop that is due deals with its message, unless it has to wait for the writer. -/
theorem lap_due (due : c.readPhase.isDue = true)
    (free : ∀ request, c.readPhase = .refusing request → c.busy = false) (stepped : c.stepRead = some c')
    (reader : c'.reader = c.reader) (shutdown : c'.shutdown = c.shutdown)
    (place : c'.readPhase = .reading ∨ ∃ n, c.readPhase = .noticing n ∧ c'.readPhase = .handling n) :
    (c.stepRead = none ↔ c.lap = .apart) ∧ c.Round c.lap (c.stepRead.getD c) := by
  have lap : c.lap = .dispatched c.readPhase := by
    cases at' : c.readPhase <;> simp_all [lap, ReadPhase.isDue]
  rw [stepped, lap]
  exact ⟨by simp, .dispatched due reader shutdown place⟩

/-- The step of the read loop is the one that `lap` tells, and there is none when that is nothing. -/
theorem lap_spec (c : Connection) :
    (c.stepRead = none ↔ c.lap = .apart) ∧ c.Round c.lap (c.stepRead.getD c) := by
  cases place : c.readPhase with
  | reading => exact lap_reading place
  | idle | handling n | ended | crashed =>
    have stepped : c.stepRead = none := by simp [stepRead, place]
    have lap : c.lap = .apart := by simp [lap, place]
    rw [stepped, lap]
    exact ⟨by simp, .refl c⟩
  | settling id r =>
    have stepped : c.stepRead = some { c.settle id r with readPhase := .reading } := by
      simp [stepRead, place]
    obtain ⟨reader, shutdown⟩ := c.settle_loop id r
    exact lap_due (by rw [place]; rfl) (by simp [place]) stepped reader shutdown (Or.inl rfl)
  | dispatching request =>
    have stepped : c.stepRead = some { c with
        readPhase := if c.requestMethods.contains request.method then .admitting request
          else .refusing request } := by simp [stepRead, place]
    have lap : c.lap = .went := by simp [lap, place]
    rw [stepped, lap]
    exact ⟨by simp, .routed request place⟩
  | refusing request =>
    cases waits : c.busy with
    | true =>
      have stepped : c.stepRead = none := by simp [stepRead, place, waits]
      have lap : c.lap = .apart := by simp [lap, place, waits]
      rw [stepped, lap]
      exact ⟨by simp, .refl c⟩
    | false =>
      let answer : Message := .response (.failure request.id (.methodNotFound request.method))
      have stepped : c.stepRead = some { c.tryWrite answer with readPhase := .reading } := by
        simp [stepRead, place, waits, answer]
      obtain ⟨reader, shutdown, -⟩ := c.tryWrite_loop answer
      exact lap_due (by rw [place]; rfl) (fun _ _ => waits) stepped reader shutdown (Or.inl rfl)
  | admitting request =>
    have stepped : c.stepRead = some { c.spawnJob request with readPhase := .reading } := by
      simp [stepRead, place]
    exact lap_due (by rw [place]; rfl) (by simp [place]) stepped rfl rfl (Or.inl rfl)
  | cancelling id =>
    have stepped : c.stepRead = some { c.cancelIncoming id with readPhase := .reading } := by
      simp [stepRead, place]
    rw [cancelIncoming_eq] at stepped
    exact lap_due (by rw [place]; rfl) (by simp [place]) stepped rfl rfl (Or.inl rfl)
  | noticing n =>
    have stepped : c.stepRead = some { c with
        readPhase := if c.notificationMethods.contains n.method then .handling n else .reading } := by
      simp [stepRead, place]
    refine lap_due (by rw [place]; rfl) (by simp [place]) stepped rfl rfl ?_
    by_cases handled : c.notificationMethods.contains n.method = true
    · exact Or.inr ⟨n, place, if_pos handled⟩
    · exact Or.inl (if_neg handled)
  | draining =>
    have stepped : c.stepRead = some { c.drain with readPhase := .releasing } := by
      simp [stepRead, place]
    have lap : c.lap = .went := by simp [lap, place]
    rw [stepped, lap]
    exact ⟨by simp, .drained place⟩
  | releasing =>
    have stepped : c.stepRead = some { c.release with readPhase := .ended } := by
      simp [stepRead, place]
    rw [release_eq] at stepped
    have lap : c.lap = .went := by simp [lap, place]
    rw [stepped, lap]
    exact ⟨by simp, .released place rfl rfl rfl⟩

theorem round_stepJob {j : Nat} (h : c.stepJob j = some c') : c.Round .apart c' := by
  unfold stepJob at h
  cases here : c.jobs[j]? with
  | none => simp [here] at h
  | some job =>
    simp only [here, Option.bind_eq_bind, Option.bind_some] at h
    split at h
    · obtain rfl := Option.some.inj h
      exact .apart rfl rfl rfl
    · simp at h
    · simp at h
    · obtain rfl := Option.some.inj h
      exact .apart rfl rfl rfl
    · rename_i response _
      split at h
      · simp at h
      · obtain rfl := Option.some.inj h
        obtain ⟨reader, shutdown, place⟩ := c.tryWrite_loop (.response response)
        exact .apart reader place shutdown

theorem round_stepClose {place place' : Closing} (h : c.stepClose place = some (c', place')) :
    c.Round .apart c' := by
  cases place with
  | unwriting =>
    rcases stepClose_unwriting h with ⟨-, rfl, -⟩ | ⟨-, rfl, -⟩
    · exact .apart rfl rfl rfl
    · exact .apart rfl rfl rfl
  | draining =>
    obtain ⟨rfl, rfl⟩ := Prod.mk.inj (Option.some.inj h)
    exact .apart rfl rfl rfl
  | releasing =>
    obtain ⟨rfl, rfl⟩ := Prod.mk.inj (Option.some.inj h)
    rw [release_eq]
    exact .apart rfl rfl rfl
  | ended => simp [stepClose] at h

end Connection

/-- A call has no part in the read loop. -/
theorem Call.Step.round {now : Nat} {c c' : Connection} {call : Call} {phase : CallPhase}
    (step : Step now c call c' phase) : c.Round .apart c' := by
  cases step with
  | written k _ place wrote =>
    obtain ⟨-, rfl⟩ := Connection.canWrite_of_write wrote
    exact .apart rfl rfl rfl
  | notified id =>
    obtain ⟨reader, shutdown, place⟩ := c.tryWrite_loop (cancelMessage id)
    exact .apart reader place shutdown
  | _ => exact .apart rfl rfl rfl

namespace Channel

variable {name : String} {s s' : Channel}

/-- What a move has to do with the read loop. -/
def event (s : Channel) : Move → LoopEvent
  | .talk .read _ => s.connection.lap
  | .readOn =>
    match s.connection.readPhase, s.connection.reader.read with
    | .reading, .read m _ => .heard (.ok m)
    | .reading, .failed e _ => if e.isMalformed then .heard (.error e) else .apart
    | _, _ => .apart
  | .talk (.handled crashed) _ =>
    match s.connection.readPhase with
    | .handling n => if crashed then .crashed n else .returned n
    | _ => .apart
  | .talk (.feed octets) _ => .came octets
  | .talk .hangUp _ => .hungUp
  | .talk .listen _ => if s.connection.listening then .apart else .began
  | .close => .asked
  | _ => .apart

theorem round_handled (s : Channel) (crashed : Bool) :
    s.connection.Round (s.event (.talk (.handled crashed) rfl))
      (s.step (.talk (.handled crashed) rfl)).connection := by
  cases place : s.connection.readPhase with
  | handling n =>
    cases crashed with
    | false =>
      have stepped : (s.step (.talk (.handled false) rfl)).connection =
          { s.connection with readPhase := .reading } := by
        simp_all [step, Dialogue.step, Dialogue.touch, connection, Connection.finishHandling]
      have event : s.event (.talk (.handled false) rfl) = .returned n := by simp [event, place]
      rw [stepped, event]
      exact .returned n place
    | true =>
      have stepped : (s.step (.talk (.handled true) rfl)).connection =
          { s.connection with readPhase := .crashed } := by
        simp_all [step, Dialogue.step, Dialogue.touch, connection, Connection.crashHandling]
      have event : s.event (.talk (.handled true) rfl) = .crashed n := by simp [event, place]
      rw [stepped, event]
      exact .crashed n place
  | _ =>
    have stepped : (s.step (.talk (.handled crashed) rfl)).connection = s.connection := by
      simp_all [step, Dialogue.step, Dialogue.touch, connection, Connection.finishHandling,
        Connection.crashHandling]
    have event : s.event (.talk (.handled crashed) rfl) = .apart := by simp [event, place]
    rw [stepped, event]
    exact .refl _

/-- The loop goes on although it was asked to end. -/
theorem round_readOn (s : Channel) :
    s.connection.Round (s.event .readOn) (s.step .readOn).connection := by
  cases place : s.connection.readPhase with
  | reading =>
    cases read : s.connection.reader.read with
    | read m reader =>
      have stepped : (s.step .readOn).connection =
          { s.connection with reader, readPhase := Connection.phaseFor m } := by
        simp_all [step, Dialogue.touch, connection, Connection.readOn]
      have event : s.event .readOn = .heard (.ok m) := by simp [event, place, read]
      rw [stepped, event]
      exact .took m reader place read
    | failed e reader =>
      cases malformed : e.isMalformed with
      | true =>
        have stepped : (s.step .readOn).connection = { s.connection with reader } := by
          simp_all [step, Dialogue.touch, connection, Connection.readOn]
        have event : s.event .readOn = .heard (.error e) := by simp [event, place, read, malformed]
        rw [stepped, event]
        exact .skipped e reader place malformed read
      | false =>
        have stepped : (s.step .readOn).connection = s.connection := by
          simp_all [step, Dialogue.touch, connection, Connection.readOn]
        have event : s.event .readOn = .apart := by simp [event, place, read, malformed]
        rw [stepped, event]
        exact .refl _
    | _ =>
      have stepped : (s.step .readOn).connection = s.connection := by
        simp_all [step, Dialogue.touch, connection, Connection.readOn]
      have event : s.event .readOn = .apart := by simp [event, place, read]
      rw [stepped, event]
      exact .refl _
  | _ =>
    have stepped : (s.step .readOn).connection = s.connection := by
      simp_all [step, Dialogue.touch, connection, Connection.readOn]
    have event : s.event .readOn = .apart := by simp [event, place]
    rw [stepped, event]
    exact .refl _

/-- What a move does to the read loop. -/
theorem step_round (s : Channel) (move : Move) :
    s.connection.Round (s.event move) (s.step move).connection := by
  -- a move that leaves reader, flag and place alone is nothing to the loop
  have apart : ∀ {c : Option Connection}, (∀ c', c = some c' → s.connection.Round .apart c') →
      s.connection.Round .apart (s.dialogue.touch c).connection := by
    intro c same
    cases c with
    | none => exact .refl _
    | some c => exact same c rfl
  cases move with
  | talk move other =>
    cases move with
    | read => exact s.connection.lap_spec.2
    | handled crashed => exact round_handled s crashed
    | feed octets => exact .came octets
    | hangUp => exact .hungUp
    | listen =>
      cases listening : s.connection.listening with
      | true =>
        have event : s.event (.talk .listen rfl) = .apart := by simp [event, listening]
        rw [event]
        apply apart
        intro c' h
        simp_all [Connection.listen, Except.toOption]
      | false =>
        have event : s.event (.talk .listen rfl) = .began := by simp [event, listening]
        have stepped : (s.step (.talk .listen rfl)).connection =
            { s.connection with listening := true, readPhase := .reading } := by
          simp_all [step, Dialogue.step, Dialogue.touch, Connection.listen, connection, Except.toOption]
        rw [event, stepped]
        exact .began listening
    | handleRequests method =>
      apply apart
      intro c' h
      unfold Connection.onRequest at h
      split at h
      · simp [Except.toOption] at h
      · obtain rfl := by simpa [Except.toOption] using h
        exact .apart rfl rfl rfl
    | handleNotifications method =>
      apply apart
      intro c' h
      unfold Connection.onNotification at h
      split at h
      · simp [Except.toOption] at h
      · obtain rfl := by simpa [Except.toOption] using h
        exact .apart rfl rfl rfl
    | request | fire | pass => exact .refl _
    | reach | stall => exact .apart rfl rfl rfl
    | call i =>
      cases here : s.dialogue.calls[i]? with
      | none => simpa [event, step, Dialogue.step, here] using Connection.Round.refl s.connection
      | some call =>
        cases stepped : call.step s.dialogue.now s.dialogue.connection with
        | none => simpa [event, step, Dialogue.step, here, stepped] using
            Connection.Round.refl s.connection
        | some result =>
          obtain ⟨c, call'⟩ := result
          obtain ⟨phase, rfl, effect⟩ := Call.step_effect stepped
          simpa [event, step, Dialogue.step, here, stepped] using effect.round
    | notify n other =>
      obtain ⟨reader, shutdown, place⟩ := s.connection.tryWrite_loop (.notification n)
      simp only [event, step, Dialogue.step, connection]
      split
      · exact .refl _
      · exact .apart reader place shutdown
    | job j =>
      apply apart
      intro c' h
      exact Connection.round_stepJob h
    | finishJob j outcome => exact .apart rfl rfl rfl
    | beginClose | close => simp [Dialogue.Move.isClosing] at other
  | readOn => exact round_readOn s
  | close => exact .asked
  | closer i =>
    cases here : s.closers[i]? with
    | none => simpa [event, step, here] using Connection.Round.refl s.connection
    | some place =>
      cases stepped : s.connection.stepClose place with
      | none => simpa [event, step, here, stepped] using Connection.Round.refl s.connection
      | some result =>
        obtain ⟨c, place'⟩ := result
        simpa [event, step, here, stepped] using Connection.round_stepClose stepped

/-! ## What has happened -/

def events (name : String) (moves : List Move) : List LoopEvent :=
  (machine name).recorded (fun s move => [s.event move]) moves

/-- The frames that the loop has read. -/
def heard (name : String) (moves : List Move) : List (Except FrameError Message) :=
  (events name moves).filterMap LoopEvent.heard?

/-- The places from which the loop has dealt with messages. -/
def dispatched (name : String) (moves : List Move) : List ReadPhase :=
  (events name moves).filterMap LoopEvent.dispatched?

/-- All that has come, as a reader finds it that has read nothing. -/
def whole (name : String) (moves : List Move) : FrameReader :=
  { stream :=
      { chunks := (events name moves).flatMap LoopEvent.chunks
        ended := (events name moves).any LoopEvent.hangsUp } }

/-- Nothing comes from a server that has hung up. -/
def Orderly (name : String) (moves : List Move) : Prop :=
  ∀ before octets later, events name moves = before ++ .came octets :: later →
    before.any LoopEvent.hangsUp = false

variable {moves : List Move} {move : Move}

theorem events_concat (moves : List Move) (move : Move) :
    events name (moves ++ [move]) =
      events name moves ++ [((machine name).after moves).event move] :=
  Machine.recorded_concat ..

theorem heard_concat (moves : List Move) (move : Move) :
    heard name (moves ++ [move]) =
      heard name moves ++ (((machine name).after moves).event move).heard?.toList := by
  rw [heard, events_concat, List.filterMap_append]
  cases result : (((machine name).after moves).event move).heard? <;> simp [result, heard]

theorem dispatched_concat (moves : List Move) (move : Move) :
    dispatched name (moves ++ [move]) =
      dispatched name moves ++ (((machine name).after moves).event move).dispatched?.toList := by
  rw [dispatched, events_concat, List.filterMap_append]
  cases place : (((machine name).after moves).event move).dispatched? <;> simp [place, dispatched]

theorem whole_concat (moves : List Move) (move : Move) :
    whole name (moves ++ [move]) =
      (whole name moves).continued (((machine name).after moves).event move).chunks
        ((whole name moves).stream.ended || (((machine name).after moves).event move).hangsUp) := by
  simp [whole, events_concat, FrameReader.continued, OctetStream.continued]

theorem size_whole_concat (moves : List Move) (move : Move) :
    (whole name (moves ++ [move])).stream.size = (whole name moves).stream.size +
      (((machine name).after moves).event move).chunks.flatten.length := by
  simp [whole_concat, FrameReader.continued, OctetStream.continued, OctetStream.size]

theorem Orderly.of_concat (orderly : Orderly name (moves ++ [move])) : Orderly name moves := by
  intro before octets later split
  refine orderly before octets (later ++ [((machine name).after moves).event move]) ?_
  rw [events_concat, split, List.append_assoc, List.cons_append]

/-- What comes from an orderly server comes before the end of the stream. -/
theorem Orderly.open_of_came (orderly : Orderly name (moves ++ [move])) {octets : List UInt8}
    (came : ((machine name).after moves).event move = .came octets) :
    (whole name moves).stream.ended = false :=
  orderly (events name moves) octets [] (by rw [events_concat, came])

theorem filled_whole (moves : List Move) : [] ∉ (whole name moves).stream.chunks := by
  intro among
  obtain ⟨e, -, empty⟩ := List.mem_flatMap.mp among
  exact e.nil_notMem_chunks empty

end Channel

namespace Connection

variable {c c' : Connection} {e : LoopEvent}

/-- What becomes of the reader with an event. -/
inductive Reading (r : FrameReader) : LoopEvent → FrameReader → Prop where
  | heard (result : Except FrameError Message) (r' : FrameReader) (answers : r.Answers result r') :
      Reading r (.heard result) r'
  | goesOn (e : LoopEvent) (none : e.heard? = none) :
      Reading r e (r.continued e.chunks (r.stream.ended || e.hangsUp))
  | left (why : Leaving) (r' : FrameReader) (leaves : r.stream.Leaves r'.stream) :
      Reading r (.left why) r'

/-- An event with which nothing comes leaves the stream as it is. -/
theorem continued_eq_self (r : FrameReader) (chunks : e.chunks = []) (hangsUp : e.hangsUp = false) :
    r.continued e.chunks (r.stream.ended || e.hangsUp) = r := by
  simp [chunks, hangsUp, FrameReader.continued, OctetStream.continued]

theorem Reading.stays {r r' : FrameReader} (same : r' = r) (none : e.heard? = none)
    (chunks : e.chunks = []) (hangsUp : e.hangsUp = false) : Reading r e r' := by
  have goesOn : Reading r e (r.continued e.chunks (r.stream.ended || e.hangsUp)) := .goesOn e none
  rw [continued_eq_self r chunks hangsUp] at goesOn
  rwa [same]

theorem Round.reading (round : Round c e c') (filled : [] ∉ c.reader.stream.chunks) :
    Reading c.reader e c'.reader := by
  have advances := FrameReader.read_advances filled
  cases round with
  | apart reader | released _ reader => exact .stays reader rfl rfl rfl
  | dispatched _ reader => exact .stays reader rfl rfl rfl
  | took m reader place read => exact .heard _ _ (.message m reader read)
  | skipped e reader place malformed read => exact .heard _ _ (.error e reader read)
  | came octets =>
    -- octets that come are a further chunk for the reader
    have fed : (c.feed octets).reader = c.reader.continued (LoopEvent.came octets).chunks
        (c.reader.stream.ended || false) := by
      cases octets <;> simp [feed, OctetStream.feed, FrameReader.continued, OctetStream.continued,
        LoopEvent.chunks]
    rw [fed]
    exact .goesOn (.came octets) rfl
  | hungUp =>
    have finished : c.hangUp.reader = c.reader.continued [] (c.reader.stream.ended || true) := by
      simp [hangUp, OctetStream.finish, FrameReader.continued, OctetStream.continued]
    rw [finished]
    exact .goesOn .hungUp rfl
  | left why reader place reason =>
    refine .left why reader ?_
    cases why with
    | asked =>
      rw [reason.2]
      exact .refl filled
    | ended =>
      have read : c.reader.read = .ended reader := reason
      rw [read] at advances
      exact advances.1
    | broken e =>
      rw [reason.2] at advances
      exact advances.1
  | _ => exact .stays rfl rfl rfl rfl

/-- A loop that does not end has not begun to before. -/
theorem Round.goes_on (round : Round c e c') (silent : c.listening = false → c.readPhase = .idle)
    (open' : c'.readPhase.isEnding = false) : c.readPhase.isEnding = false := by
  cases round with
  | apart _ place => exact place ▸ open'
  | asked | came | hungUp => exact open'
  | began still => rw [silent still]; rfl
  | took _ _ place | skipped _ _ place | routed _ place | returned _ place | crashed _ place
  | left _ _ place => rw [place]; rfl
  | dispatched due =>
    cases place : c.readPhase <;> simp_all [ReadPhase.isDue, ReadPhase.isEnding]
  | drained => simp [ReadPhase.isEnding] at open'
  | released _ _ _ ended => simp [ended, ReadPhase.isEnding] at open'

/-- Frames are heard by a loop that waits for them. -/
theorem Round.reading_of_heard {result : Except FrameError Message}
    (round : Round c (.heard result) c') : c.readPhase = .reading := by
  cases round with
  | took _ _ place | skipped _ _ place => exact place

theorem Round.draining_of_left {why : Leaving} (round : Round c (.left why) c') :
    c.readPhase = .reading ∧ c'.readPhase = .draining ∧ c'.terminated = true := by
  cases round with
  | left _ _ place => exact ⟨place, rfl, rfl⟩

theorem Reading.filled {r r' : FrameReader} (reading : Reading r e r') (h : [] ∉ r.stream.chunks) :
    [] ∉ r'.stream.chunks := by
  cases reading with
  | heard result r' answers => exact (answers.leaves h).filled
  | goesOn _ none =>
    intro among
    exact (List.mem_append.mp among).elim h e.nil_notMem_chunks
  | left why r' leaves => exact leaves.filled

/-- What was heard of all that has come, and goes on with an event. -/
theorem Round.hears {whole now : FrameReader} {heard : List (Except FrameError Message)}
    (round : Round c e c') (filled : [] ∉ c.reader.stream.chunks)
    (silent : c.listening = false → c.readPhase = .idle) (filled' : [] ∉ whole.stream.chunks)
    (still : whole.stream.ended = true → e.chunks = [])
    (hears : FrameReader.Hears whole heard now)
    (here : c.readPhase.isEnding = false → c.reader = now) :
    ∃ now', FrameReader.Hears (whole.continued e.chunks (whole.stream.ended || e.hangsUp))
      (heard ++ e.heard?.toList) now' ∧ (c'.readPhase.isEnding = false → c'.reader = now') := by
  have going := round.goes_on silent
  have reading := round.reading filled
  generalize reader' : c'.reader = r' at reading
  cases reading with
  | heard result r' answers =>
    obtain rfl := here (by rw [round.reading_of_heard]; rfl)
    refine ⟨r', ?_, fun _ => rfl⟩
    rw [continued_eq_self whole rfl rfl]
    exact hears.concat answers
  | goesOn _ none =>
    -- nothing was read: what comes is added to the rest as it is to the whole
    have ended := (hears.leaves filled').ended
    have there : c'.readPhase.isEnding = false →
        c.reader.continued e.chunks (c.reader.stream.ended || e.hangsUp) =
          now.continued e.chunks (now.stream.ended || e.hangsUp) := by
      intro open'
      rw [here (going open')]
    refine ⟨now.continued e.chunks (now.stream.ended || e.hangsUp), ?_, there⟩
    rw [none, Option.toList_none, List.append_nil, ended]
    cases closed : whole.stream.ended with
    | false => exact hears.continued closed filled' _ _
    | true =>
      rw [still closed]
      -- after the end of the stream nothing more can come
      have done : ∀ r : FrameReader, r.stream.ended = true → r.continued [] true = r := by
        intro r closed'
        simp [FrameReader.continued, OctetStream.continued, ← closed']
      rw [Bool.true_or, done whole closed, done now (ended.trans closed)]
      exact hears
  | left why r' leaves =>
    refine ⟨now, ?_, ?_⟩
    · have none : (LoopEvent.left why).heard?.toList = [] := rfl
      rw [continued_eq_self whole rfl rfl, none, List.append_nil]
      exact hears
    · intro open'
      rw [round.draining_of_left.2.1] at open'
      simp [ReadPhase.isEnding] at open'

/-- What has come is not read yet, or has been paid for what was heard. -/
theorem Reading.size {r r' : FrameReader} (reading : Reading r e r') (h : [] ∉ r.stream.chunks) :
    e.heard?.toList.length + r'.stream.size ≤ r.stream.size + e.chunks.flatten.length := by
  cases reading with
  | heard result r' answers =>
    have less := answers.size_lt h
    simp only [LoopEvent.heard?, Option.toList_some, List.length_singleton]
    omega
  | goesOn _ none => simp [none, FrameReader.continued, OctetStream.continued, OctetStream.size]
  | left why r' leaves =>
    have le := leaves.size_le
    simp only [LoopEvent.heard?, Option.toList_none, List.length_nil]
    omega

/-- How many steps the loop takes at most for what has come. -/
def workLeft (c : Connection) : Nat :=
  3 * c.reader.stream.size + c.readPhase.rank

theorem rank_phaseFor_le (m : Message) : (phaseFor m).rank ≤ 5 := by
  cases phaseFor m <;> simp [ReadPhase.rank]

/-- Every step of the loop comes closer to the next frame, or to the end; what was heard has to be
    dealt with. -/
theorem Round.rank_le (round : Round c e c') (silent : c.listening = false → c.readPhase = .idle) :
    (if e.isStep then 1 else 0) + c'.readPhase.rank ≤ c.readPhase.rank + 3 * e.heard?.toList.length := by
  cases round with
  | apart _ place => simp [place, LoopEvent.isStep]
  | asked | came | hungUp => simp [LoopEvent.isStep, beginClose, feed, hangUp]
  | began still =>
    simp [silent still, LoopEvent.isStep, LoopEvent.heard?, ReadPhase.rank]
  | took m reader place =>
    have rank := rank_phaseFor_le m
    simp only [place, LoopEvent.isStep, LoopEvent.heard?, if_true, Option.toList_some,
      List.length_singleton]
    change 1 + (phaseFor m).rank ≤ 3 + 3 * 1
    omega
  | skipped e reader place => simp [place, LoopEvent.isStep, LoopEvent.heard?, ReadPhase.rank]
  | routed r place =>
    simp only [place, LoopEvent.isStep, if_true]
    split <;> simp [ReadPhase.rank]
  | dispatched due _ _ place =>
    rcases place with place | ⟨n, before, place⟩
    · cases before : c.readPhase <;> simp_all [ReadPhase.isDue, ReadPhase.rank, LoopEvent.isStep,
        LoopEvent.heard?]
    · simp [before, place, ReadPhase.rank, LoopEvent.isStep]
  | returned n place | crashed n place => simp [place, ReadPhase.rank, LoopEvent.isStep, LoopEvent.heard?]
  | left why reader place => simp [place, leave, ReadPhase.rank, LoopEvent.isStep]
  | drained place => simp [place, ReadPhase.rank, LoopEvent.isStep]
  | released place _ _ ended => simp [place, ended, ReadPhase.rank, LoopEvent.isStep]

/-- Each step of the loop is work done, and there is more only when more comes. -/
theorem Round.workLeft_le (round : Round c e c') (filled : [] ∉ c.reader.stream.chunks)
    (silent : c.listening = false → c.readPhase = .idle) :
    (if e.isStep then 1 else 0) + c'.workLeft ≤ c.workLeft + 3 * e.chunks.flatten.length := by
  have size := (round.reading filled).size filled
  have rank := round.rank_le silent
  unfold workLeft
  omega

end Connection

namespace Channel

variable {name : String} {s : Channel}

theorem step_reading (filled : [] ∉ s.connection.reader.stream.chunks) (move : Move) :
    Connection.Reading s.connection.reader (s.event move) (s.step move).connection.reader :=
  (step_round s move).reading filled

theorem filled_after (moves : List Move) :
    [] ∉ ((machine name).after moves).connection.reader.stream.chunks := by
  refine (machine name).run_induction (fun _ s => [] ∉ s.connection.reader.stream.chunks) ?_ ?_ moves
  · simp [machine, Dialogue.machine]
  · intro moves move h
    rw [after_concat]
    exact (step_reading h move).filled h

/-- Every frame that was heard has cost octets that have come. -/
theorem length_heard_add (moves : List Move) :
    (heard name moves).length + ((machine name).after moves).connection.reader.stream.size ≤
      (whole name moves).stream.size := by
  refine (machine name).run_induction (fun moves s =>
    (heard name moves).length + s.connection.reader.stream.size ≤ (whole name moves).stream.size)
    ?_ ?_ moves
  · simp [machine, Dialogue.machine, heard, events, OctetStream.size]
  · intro moves move h
    have cost := (step_reading (filled_after moves) move).size (@filled_after name moves)
    rw [heard_concat, List.length_append, size_whole_concat, after_concat]
    omega

/-- The steps of a loop are as many as what has come is worth, and the few of its beginning and its
    end. -/
theorem steps_add (moves : List Move) :
    (events name moves).countP LoopEvent.isStep + ((machine name).after moves).connection.workLeft ≤
      4 + 3 * (whole name moves).stream.size := by
  refine (machine name).run_induction (fun moves s =>
    (events name moves).countP LoopEvent.isStep + s.connection.workLeft ≤
      4 + 3 * (whole name moves).stream.size) ?_ ?_ moves
  · exact Nat.le_refl 4
  · intro moves move h
    have work := (step_round _ move).workLeft_le (filled_after moves) (@ending_after name moves).silent
    rw [events_concat, List.countP_append, List.countP_singleton, size_whole_concat, after_concat]
    omega

/-- What was heard is what a reader makes of all that has come; as long as the loop does not end, it
    goes on from there. -/
theorem hears_after (moves : List Move) (orderly : Orderly name moves) :
    ∃ now, FrameReader.Hears (whole name moves) (heard name moves) now ∧
      (((machine name).after moves).connection.readPhase.isEnding = false →
        ((machine name).after moves).connection.reader = now) := by
  refine (machine name).run_induction (fun moves s => Orderly name moves →
    ∃ now, FrameReader.Hears (whole name moves) (heard name moves) now ∧
      (s.connection.readPhase.isEnding = false → s.connection.reader = now)) ?_ ?_ moves orderly
  · exact fun _ => ⟨{}, .nothing _, fun _ => rfl⟩
  · intro moves move h orderly
    obtain ⟨now, hears, here⟩ := h orderly.of_concat
    rw [heard_concat, whole_concat, after_concat]
    refine (step_round _ move).hears (filled_after moves) (ending_after moves).silent
      (filled_whole moves) (fun closed => ?_) hears here
    -- nothing comes when the stream has ended
    cases event : ((machine name).after moves).event move with
    | came octets => simp [orderly.open_of_came event] at closed
    | _ => rfl

end Channel

end LanguageClient
