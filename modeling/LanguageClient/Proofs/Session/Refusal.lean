import LanguageClient.Proofs.Connection.Errors
import LanguageClient.Proofs.Session.LifeCycle
import LanguageClient.Proofs.Session.Surfaced
/-!
# When the server refuses to be initialized

A response that was assigned to the `initialize` of a start stays in its place until the start takes
its next step (`held_after`), and the start takes an error in it for what the server has said: the
handshake has failed for the reason that the server gives, and can be tried again when the data of the
error say so.  That does not hold of the two codes that the client uses itself, for then the error is
taken for one of the client before the start sees it.

**`errors_reported`** says both of errors: what the requests of a connection come to, and what a start
makes of them.
-/

namespace LanguageClient

namespace Session

variable {now : Nat} {h h' : Host} {s s' : Session} {t c k : Nat} {task task' : Task} {r : Response}

/-! ## Responses stay -/

/-- A response that is not for the call of a task stays when the task takes a step. -/
theorem Talk.get?_replies (talk : Talk now s task s' task') (grounded : Grounded s)
    (here : s.tasks[t]? = some task) (gone : k ∉ (s.connection c).pending)
    (other : ∀ call, task.call? = some (c, call) → call.tabled? ≠ some k) :
    (s'.connection c).replies.get? k = (s.connection c).replies.get? k := by
  -- what is done with a connection but for calls brings no response
  have tame : ∀ {may connection}, (s.connection c).Tame may connection →
      connection.replies.get? k = (s.connection c).replies.get? k := by
    intro may connection tame
    cases tame with
    | effect effect => exact effect.get?_replies gone
    | noticed n said can rest => rw [rest.replies]
  cases talk with
  | quiet connections => rw [(sameTables_connection connections c).2.2]
  | opened connections =>
    have new : SameTables { name := s.name } s.newConnection := ⟨rfl, rfl, rfl⟩
    rw [(sameTables_connection_append new connections c).2.2]
  | tended c' connection isTame connections =>
    by_cases there : c = c' ∧ c' < s.connections.length
    · obtain ⟨rfl, inside⟩ := there
      rw [connection_eq_of_set connections inside]
      exact tame isTame
    · rw [(sameTables_connection_set connections (by omega)).2.2]
  | began c' connection₁ connection call phase there idle isTame fresh step connections =>
    have inside : c' < s.connections.length :=
      there.elim (grounded.worked t task c' here) (grounded.current c')
    -- the call is for another response, or on another connection
    by_cases on : c = c'
    · subst on
      rw [connection_eq_of_set connections inside,
        step.get?_replies_of_ne (by simp [Call.tabled?, fresh])]
      exact tame isTame
    · rw [(sameTables_connection_set connections (Or.inl on)).2.2]
  | talked c' connection call phase calling step connections =>
    have inside : c' < s.connections.length :=
      grounded.worked t task c' here (connection?_of_call? calling)
    by_cases on : c = c'
    · subst on
      rw [connection_eq_of_set connections inside]
      exact step.get?_replies_of_ne (other call calling)
    · rw [(sameTables_connection_set connections (Or.inl on)).2.2]

theorem Serves.get?_replies (serves : Serves h s h' s') (gone : k ∉ (s.connection c).pending) :
    (s'.connection c).replies.get? k = (s.connection c).replies.get? k := by
  obtain ⟨c', connection, registry, handlers, passing, diagnostics, -, effect, rfl⟩ := serves
  change ((s.setConnection c' connection).connection c).replies.get? k = _
  have connections : (s.setConnection c' connection).connections = s.connections.set c' connection :=
    rfl
  by_cases there : c = c' ∧ c' < s.connections.length
  · obtain ⟨rfl, inside⟩ := there
    rw [connection_eq_of_set connections inside]
    exact effect.get?_replies gone
  · rw [(sameTables_connection_set connections (by omega)).2.2]

/-! ## The end of an attempt -/

/-- A session in which the response to a call was fetched. -/
def fetched (s : Session) (c k : Nat) : Session :=
  s.onConnection c fun connection =>
    { connection with replies := connection.replies.erase k }

theorem terminated_fetched (s : Session) (c k : Nat) :
    ((s.fetched c k).connection c).terminated = (s.connection c).terminated := by
  by_cases there : c < s.connections.length
  · simp [fetched, onConnection, connection, setConnection, there]
  · simp [fetched, onConnection, connection, setConnection,
      List.set_eq_of_length_le (Nat.le_of_not_lt there)]

/-- An attempt ends with the step in which its response is there. -/
theorem stepStart_of_reply {attempt deadline : Nat} {call : Call}
    (place : call.phase = .waiting k deadline) (reply : (s.connection c).replies.get? k = some r) :
    s.stepStart now h t (.initializing c attempt call) =
      some (concludeAttempt now h (s.fetched c k) c attempt (Call.outcomeOf (s.connection c) r)) := by
  have unanswered : call.result? = none := by simp [Call.result?, place]
  have fetches : call.step now (s.connection c) =
      some ({ s.connection c with replies := (s.connection c).replies.erase k },
        { call with phase := .ended (Call.outcomeOf (s.connection c) r) }) := by
    simp [Call.step, place, reply]
  simp only [stepStart, unanswered, stepCall, fetches, Option.map_some]
  rfl

end Session

namespace Scene

variable {setup : Setup} {moves : List Move} {d : Scene} {t c attempt k deadline : Nat} {call : Call}
  {r : Response} {e : ResponseError}

/-- A start waits for the answer to its `initialize`, and finds it with its next step. -/
structure Holds (d : Scene) (t c attempt k : Nat) (call : Call) (r : Response) : Prop where
  here : d.session.tasks[t]? = some (.start (.initializing c attempt call))
  place : ∃ deadline, call.phase = .waiting k deadline
  reply : (d.session.connection c).replies.get? k = some r

namespace Holds

theorem tabled (holds : d.Holds t c attempt k call r) : call.tabled? = some k := by
  obtain ⟨deadline, place⟩ := holds.place
  simp [Call.tabled?, place]

/-- Only the start itself takes the answer. -/
theorem step {move : Move} (holds : ((machine setup).after moves).Holds t c attempt k call r)
    (other : move ≠ .act (.task t)) :
    ((machine setup).after (moves ++ [move])).Holds t c attempt k call r := by
  have kept := @callsKept_after setup moves c
  have grounded := @grounded_after setup moves
  have covered := @covered_after setup moves
  rw [Machine.after_concat, step_machine]
  generalize (machine setup).after moves = d at *
  have mine : Tabled (d.session.calls c) t k :=
    ⟨call, Session.calls_eq_some_iff.mpr ⟨_, holds.here, rfl⟩, holds.tabled⟩
  have gone : k ∉ (d.session.connection c).pending := by
    rw [kept.correlated.tabled t k mine, holds.reply]
    simp
  by_cases task : ∃ i, move = .act (.task i)
  · obtain ⟨i, rfl⟩ := task
    rcases step_task covered i with same | ⟨task, h, s₁, task', there, step, same⟩
    · rwa [same]
    · have apart : t ≠ i := by
        rintro rfl
        exact other rfl
      rw [same]
      refine ⟨step.other apart holds.here, holds.place, ?_⟩
      -- the call of another task has another number
      refine (step.talk.get?_replies grounded there gone fun call' calling tabled => apart ?_).trans
        holds.reply
      exact kept.correlated.distinct t i k mine.numbered
        ⟨call', Session.calls_eq_some_iff.mpr ⟨_, there, calling⟩, Call.number?_of_tabled? tabled⟩
  · rcases (step_beside fun i same => task ⟨i, same⟩).cases with ⟨-, serves⟩ | ⟨aside, -⟩
    · have replies := serves.get?_replies gone
      obtain ⟨c', connection, registry, handlers, passing, diagnostics, -, -, same⟩ := serves
      exact ⟨by rw [same]; exact holds.here, holds.place, replies.trans holds.reply⟩
    · refine ⟨aside.kept holds.here, holds.place, ?_⟩
      have same : (d.step move).session.connection c = d.session.connection c := by
        rw [aside.rest]
        rfl
      rw [same, holds.reply]

end Holds

/-- The step of the read loop that assigns an answer to the `initialize` of a start. -/
theorem Assigns.holds (assigns : ((machine setup).after moves).Assigns c t k r)
    (here : ((machine setup).after moves).session.tasks[t]? =
      some (.start (.initializing c attempt call)))
    (place : call.phase = .waiting k deadline) :
    ((machine setup).after (moves ++ [.act (.reader c)])).Holds t c attempt k call r := by
  have grounded := @grounded_after setup moves
  rw [Machine.after_concat, step_machine]
  generalize (machine setup).after moves = d at *
  obtain ⟨id, settling, number, waits, -⟩ := assigns
  have inside : c < d.session.connections.length := grounded.worked t _ c here rfl
  have step : d.step (.act (.reader c)) = { d with
      session := d.session.setConnection c
        { (d.session.connection c).settle id r with readPhase := .reading } } := by
    simp [Scene.step, Session.step, inside, Session.stepReader, settling, Connection.stepRead, touch]
  rw [step]
  refine ⟨here, ⟨deadline, place⟩, ?_⟩
  rcases (d.session.connection c).settle_cases id r with ⟨l, number', -, settled⟩ | ⟨idle, -⟩
  · obtain rfl : k = l := Option.some.inj (number.symm.trans number')
    rw [settled]
    simp [Session.connection, Session.setConnection, inside]
  · exact absurd waits (idle k number)

theorem held_after (holds : ((machine setup).after moves).Holds t c attempt k call r)
    (more : List Move) (others : .act (.task t) ∉ more) :
    ((machine setup).after (moves ++ more)).Holds t c attempt k call r := by
  revert others
  refine (machine setup).run_induction_from moves (fun more d => Move.act (.task t) ∉ more →
    d.Holds t c attempt k call r) (fun _ => holds) (fun more move ih others => ?_) more
  simp only [List.mem_append, List.mem_singleton, not_or] at others
  exact (ih others.1).step fun same => others.2 same.symm

/-! ## Refusals -/

/-- The step of a start that can take one. -/
theorem step_of_stepStart {p p' : StartPhase} {h : Host} {s : Session}
    (here : d.session.tasks[t]? = some (.start p))
    (step : d.session.stepStart d.now d.host t p = some (h, s, p')) :
    d.step (.act (.task t)) = { d with host := h, session := s.setTask t (.start p') } := by
  have taken : d.session.stepTask d.now d.host t = some (h, s.setTask t (.start p')) := by
    simp only [Session.stepTask, here, Option.bind_eq_bind, Option.bind_some, step, Option.map_some]
  simp [Scene.step, Session.step, taken, touch]

/-- The server refuses to be initialized, and wants another try: the start fails with its reason, if
    the session has been left meanwhile; and otherwise whoever decides is told of the reason, or the
    user is asked. -/
inductive Treated (d : Scene) (t c attempt : Nat) (reason : String) (d' : Scene) : Prop where
  | left
      (past : (d.session.connection c).terminated = true ∨ d.session.state ≠ .starting)
      (place : d'.session.tasks[t]? =
        some (.start (.failing (.handshake reason true) .detaching)))
  | decided (script : List (Option Decision)) (policy : d.session.options.policy = some script)
      (asked : d'.host.asked =
        d.host.asked ++ [.decision d.session.name attempt (.handshake reason true)])
      (place : d'.session.tasks[t]? = some (.start
        (.deciding c attempt (.handshake reason true) (Session.nextDecision script).1)))
  | prompted (nobody : d.session.options.policy = none)
      (asked : d'.host.asked = d.host.asked ++ [askedFor reason])
      (place : ∃ deadline reply, d'.session.tasks[t]? =
        some (.start (.prompting c attempt (.handshake reason true) deadline reply)))

/-- A start that finds a refusal treats it as what it is. -/
theorem Holds.treated (holds : d.Holds t c attempt k call r) (error : r.outcome = .error e)
    (foreign : e.Foreign) (retry : ClientError.asksForRetry e.data = true) :
    d.Treated t c attempt e.message (d.step (.act (.task t))) := by
  obtain ⟨deadline, place⟩ := holds.place
  have handshake : (ClientError.server e).intoHandshake = .handshake e.message true := by
    simp [ClientError.intoHandshake, retry]
  have failed : (Call.decode (.error (.server e)) : Except ClientError InitializeResult) =
      .error (.server e) := rfl
  have stepped := @Session.stepStart_of_reply d.now d.host _ t c k r attempt deadline call place
    holds.reply
  rw [Call.outcomeOf_of_foreign error foreign] at stepped
  simp only [Session.concludeAttempt, failed, handshake, Session.terminated_fetched] at stepped
  -- where the start stands then
  have there : ∀ {s : Session} {p : StartPhase}, s.tasks = d.session.tasks →
      (s.setTask t (.start p)).tasks[t]? = some (.start p) := by
    intro s p same
    simp [Session.setTask, same, (List.getElem?_eq_some_iff.mp holds.here).1]
  by_cases past : (d.session.connection c).terminated = true ∨ d.session.state ≠ .starting
  · rw [if_pos (by exact past)] at stepped
    rw [step_of_stepStart holds.here stepped]
    exact .left past (there rfl)
  · rw [if_neg (by exact past)] at stepped
    cases policy : d.session.options.policy with
    | some script =>
      have named : (d.session.fetched c k).options.policy = some script := policy
      rw [named] at stepped
      rw [step_of_stepStart holds.here stepped]
      exact .decided script policy rfl (there rfl)
    | none =>
      have named : (d.session.fetched c k).options.policy = none := policy
      rw [named] at stepped
      rw [step_of_stepStart holds.here stepped]
      exact .prompted policy (Session.asked_prompt d.host e.message) ⟨_, _, there rfl⟩

/-- **What becomes of the errors of a server.**  An error with a code of the server's own that is
    assigned to a request that waits is what the request comes to: whatever happens after that, the
    request has failed with it, or fails with its next step.  A request fails by the end of the
    connection only after the connection has ended, or when it was assigned an error with the code
    that stands for that end.  And a start whose `initialize` was refused with such an error of the
    server's own, with data that ask for another try, takes it for a failure that can be retried, for
    the reason that the server gave. -/
theorem errors_reported (name : String) (setup : Setup) :
    (∀ (moves more : List Channel.Move) (i k deadline : Nat) (call : Call)
        (r : Response) (e : ResponseError),
      let before := ((Channel.machine name).after moves).dialogue
      before.family i = some call → call.phase = .waiting k deadline → before.Assigns i k r →
      r.outcome = .error e → e.Foreign →
      let later := (Channel.machine name).after (moves ++ [.talk .read rfl] ++ more)
      (later.dialogue.outcome? i = none ∨ later.dialogue.outcome? i = some (.error (.server e))) ∧
        (later.step (.talk (.call i) rfl)).dialogue.outcome? i = some (.error (.server e))) ∧
    (∀ (moves : List Channel.Move) (i : Nat) (result : Except ClientError Json),
      ((Channel.machine name).after moves).dialogue.outcome? i = some result →
      Channel.Blamed name moves i result) ∧
    ∀ (moves more : List Move) (t c attempt k deadline : Nat) (call : Call)
        (r : Response) (e : ResponseError),
      let before := (machine setup).after moves
      before.session.tasks[t]? = some (.start (.initializing c attempt call)) →
      call.phase = .waiting k deadline → before.Assigns c t k r →
      r.outcome = .error e → e.Foreign → ClientError.asksForRetry e.data = true →
      .act (.task t) ∉ more →
      let later := (machine setup).after (moves ++ [.act (.reader c)] ++ more)
      later.Treated t c attempt e.message (later.step (.act (.task t))) := by
  refine ⟨?_, fun moves => (Channel.blamed_after moves).2, ?_⟩
  · intro moves more i k deadline call r e before here place assigns error foreign
    exact Channel.reported_after here place assigns error foreign more
  · intro moves more t c attempt k deadline call r e before here place assigns error foreign
      retry others later
    exact (held_after (assigns.holds here place) more others).treated error foreign retry

/-- The connection and the attempt of a start that waits for the answer to its `initialize`, and the
    number and the deadline of that request. -/
def awaits? (d : Scene) (t : Nat) : Option (Nat × Nat × Nat × Nat) :=
  match d.session.tasks[t]? with
  | some (.start (.initializing c attempt call)) =>
    match call.phase with
    | .waiting k deadline => some (c, attempt, k, deadline)
    | _ => none
  | _ => none

theorem exists_of_awaits? (awaits : d.awaits? t = some (c, attempt, k, deadline)) :
    ∃ call, d.session.tasks[t]? = some (.start (.initializing c attempt call)) ∧
      call.phase = .waiting k deadline := by
  unfold awaits? at awaits
  split at awaits
  · rename_i c' attempt' call here
    split at awaits
    · rename_i k' deadline' place
      simp only [Option.some.injEq, Prod.mk.injEq] at awaits
      obtain ⟨rfl, rfl, rfl, rfl⟩ := awaits
      exact ⟨call, here, place⟩
    · simp at awaits
  · simp at awaits

/-- The server answers the only request of a connection with an error. -/
def answeredBy (e : ResponseError) : List Channel.Move :=
  [.of .listen, .of (.request "textDocument/hover" none false), .of (.call 0), .of (.call 0),
    .of (.call 0), .of (.feed (Utf8.encodeString (Message.response (.failure (.number 1) e)).frame)),
    .of .read]

/-- The server answers the first `initialize` with an error. -/
def refusedBy (e : ResponseError) : List Move :=
  [.start] ++ goesOn 6 ++
    [.feed 0 (Utf8.encodeString (Message.response (.failure (.number 1) e)).frame), .act (.reader 0)]

/-- The server is not ready, and wants to be asked again. -/
def notReady (code : Int32) : ResponseError :=
  { code, message := "workspace not ready", data := some (.obj [("retry", .bool true)]) }

/-- The code 5 is one of the server's own: the request fails with what the server said, and the user
    is asked whether to try again, even when the time for an answer has run out before the start
    looks at it. -/
theorem errors_reported_notReady :
    ((Channel.machine "rust").after
        (answeredBy (notReady 5) ++ [.talk .read rfl, .talk (.call 0) rfl])).dialogue.outcome? 0 =
      some (.error (.server (notReady 5))) ∧
    Channel.Blamed "rust" (answeredBy (notReady 5) ++ [.talk .read rfl, .talk (.call 0) rfl]) 0
      (.error (.server (notReady 5))) ∧
    (let late := (machine agreeing).after
      (refusedBy (notReady 5) ++ [.act (.reader 0)] ++ [.pass 60000])
     late.Treated 0 0 1 "workspace not ready" (late.step (.act (.task 0))) ∧
      (late.step (.act (.task 0))).host.asked = [askedFor "workspace not ready"]) := by
  have foreign : (notReady 5).Foreign := by decide
  obtain ⟨reported, blamed, treated⟩ := errors_reported "rust" agreeing
  have outcome := (reported (answeredBy (notReady 5)) [] 0 1 30000 _
    (.failure (.number 1) (notReady 5)) (notReady 5) rfl rfl
    ⟨.number 1, by decide +kernel, rfl, ⟨_, rfl, rfl⟩, by decide +kernel⟩ rfl foreign).2
  refine ⟨outcome, blamed _ 0 _ outcome, ?_, by decide +kernel⟩
  obtain ⟨call, here, place⟩ : ∃ call, ((machine agreeing).after
      (refusedBy (notReady 5))).session.tasks[0]? = some (.start (.initializing 0 1 call)) ∧
      call.phase = .waiting 1 60000 := exists_of_awaits? (by decide +kernel)
  have number : Numbered (((machine agreeing).after (refusedBy (notReady 5))).session.calls 0) 0 1 :=
    ⟨call, Session.calls_eq_some_iff.mpr ⟨_, here, rfl⟩, by simp [Call.number?, place]⟩
  exact treated (refusedBy (notReady 5)) [.pass 60000] 0 0 1 1 60000 call
    (.failure (.number 1) (notReady 5)) (notReady 5) here place
    ⟨.number 1, by decide +kernel, rfl, by decide +kernel, number⟩ rfl foreign (by decide +kernel)
    (by simp)

/-- What has become of the request that was answered with a code. -/
def hovered (code : Int32) : Channel :=
  (Channel.machine "rust").after (answeredBy (notReady code) ++ [.talk .read rfl, .talk (.call 0) rfl])

/-- What has become of the start that was refused with a code. -/
def started (code : Int32) : Scene :=
  (machine agreeing).after (refusedBy (notReady code) ++ [.act (.reader 0)] ++ goesOn 8)

/-- A server that answers with the code that stands for the end of its connection: the request fails
    by an end that there was not, the user is not asked for another try, and the start has failed for
    a reason that the server did not give.  With the code that stands for a token that has fired it is
    the same with the start. -/
theorem reserved_codes_misreported :
    ((hovered ErrorCode.serverTerminated).connection.terminated = false ∧
      (hovered ErrorCode.serverTerminated).dialogue.outcome? 0 =
        some (.error (.terminated "rust"))) ∧
    ∀ refusal ∈ [(ErrorCode.serverTerminated, "fake language server terminated unexpectedly"),
        (ErrorCode.requestCancelled, "Request cancelled")],
      (started refusal.1).startError? 0 = some (.handshake refusal.2 false) ∧
        (started refusal.1).host.asked = [toldOf "fake" (.handshake refusal.2 false)] := by
  refine ⟨by decide +kernel, fun refusal among => ?_⟩
  rcases List.mem_pair.mp among with rfl | rfl <;> decide +kernel

end Scene

end LanguageClient
