import LanguageClient.Proofs.Connection.Channel
/-!
# The end of a connection and the requests that wait

Whoever ends a connection sets its flag first and drains the table of requests afterwards; a request
looks at the flag again when it has the table.  So a request that comes into the table comes before
the drain and is told, and one that comes later sees the flag.

After a drain (`Over`) the table stays empty.  A request that is in a table then has its response, so
it never gives up for lack of time: each of its turns brings it closer to its outcome
(`turnsLeft`), whatever the clock says, unless it finds the writer held up.
-/

namespace LanguageClient

inductive ClientError.Unwritten : ClientError → Prop where
  | notConnected : Unwritten .notConnected
  | brokenPipe : Unwritten (.system .brokenPipe)

namespace Call

/-- How many turns a request takes to its outcome, once the connection is over. -/
def turnsLeft (call : Call) : Nat :=
  match call.phase with
  | .ended _ => 0
  | .registered _ => 2
  | _ => 1

theorem turnsLeft_le (call : Call) : call.turnsLeft ≤ 2 := by
  unfold turnsLeft
  split <;> omega

theorem turnsLeft_eq_zero_iff {call : Call} : call.turnsLeft = 0 ↔ call.result? ≠ none := by
  unfold turnsLeft result?
  split <;> simp_all

/-- The response that tells of the end stands for the error that does. -/
theorem outcomeOf_terminationResponse (c : Connection) (k : Nat) :
    outcomeOf c (c.terminationResponse k) = .error (.terminated c.name) := by
  simp [outcomeOf, Connection.terminationResponse, Response.failure, Response.outcome,
    Connection.terminatedError]

end Call

namespace Dialogue

variable {d d' : Dialogue}

/-- The connection has ended, and all requests that waited were told. -/
structure Over (d : Dialogue) : Prop where
  terminated : d.connection.terminated = true
  pending : d.connection.pending = []

/-- A request that is in a table when the connection is over has its response. -/
theorem Over.reply (finish : d.Over) (h : Correlated d.connection d.family) {i k : Nat}
    (tabled : Tabled d.family i k) : ∃ r, d.connection.replies.get? k = some r := by
  have gone : k ∉ d.connection.pending := by simp [finish.pending]
  rw [h.tabled i k tabled] at gone
  exact Option.ne_none_iff_exists'.mp gone

/-- A request that sees the flag ends, and nothing else happens. -/
theorem turned_away (past : d.connection.terminated = true) {i : Nat} {call : Call}
    (here : d.family i = some call)
    (place : call.phase = .entering ∨ ∃ k, call.phase = .admitted k) :
    d.step (.call i) = { d with
      calls := d.calls.set i { call with phase := .ended (.error d.connection.terminatedError) } } := by
  have stepped : call.step d.now d.connection =
      some (d.connection, { call with phase := .ended (.error d.connection.terminatedError) }) := by
    rcases place with place | ⟨k, place⟩ <;> simp [Call.step, place, past]
  have here' : d.calls[i]? = some call := here
  simp [step, here', stepped]

/-- When the connection is over a step brings a request closer to its outcome. -/
theorem Over.turnsLeft_lt (finish : d.Over) (h : Correlated d.connection d.family) {i : Nat}
    {call : Call} (here : d.family i = some call) {c' : Connection} {phase : CallPhase}
    (step : Call.Step d.now d.connection call c' phase) :
    { call with phase }.turnsLeft < call.turnsLeft := by
  cases step with
  | numbered fresh live => simp [finish.terminated] at live
  | registered id place live => simp [finish.terminated] at live
  | gaveUp id deadline e place noReply =>
    have tabled : Tabled d.family i id := ⟨call, here, by simp [Call.tabled?, place]⟩
    obtain ⟨r, reply⟩ := finish.reply h tabled
    simp [noReply] at reply
  | forgotten id e place waits => simp [finish.pending] at waits
  | refused | turnedAway | written | unwritten | answered | withdrawn | late | notified =>
    simp_all [Call.turnsLeft]

/-- When the connection is over a request that has no outcome can take its turn, unless it has to wait
    for the writer. -/
theorem Over.step_call (finish : d.Over) (h : Correlated d.connection d.family) {i : Nat} {call : Call}
    (here : d.family i = some call) (open' : call.turnsLeft ≠ 0) (free : d.connection.busy = false) :
    ∃ c call', call.step d.now d.connection = some (c, call') := by
  obtain ⟨method, params, cancelled, phase⟩ := call
  cases phase with
  | entering => simp [Call.step, finish.terminated]
  | admitted k => simp [Call.step, finish.terminated]
  | registered k =>
    simp only [Call.step, free, Bool.false_eq_true, if_false]
    split <;> exact ⟨_, _, rfl⟩
  | waiting k deadline =>
    obtain ⟨r, reply⟩ := finish.reply h ⟨_, here, rfl⟩
    simp [Call.step, reply]
  | withdrawing k e => exact ⟨_, _, rfl⟩
  | abandoning k e =>
    simp only [Call.step]
    split <;> exact ⟨_, _, rfl⟩
  | notifying k e => simp [Call.step, free]
  | ended result => simp [Call.turnsLeft] at open'

/-- When the connection is over a request that waits fetches its response, whatever the time. -/
theorem Over.answered (finish : d.Over) (h : Correlated d.connection d.family) {i k deadline : Nat}
    {call : Call} (here : d.family i = some call) (place : call.phase = .waiting k deadline) :
    ∃ r, d.connection.replies.get? k = some r ∧
      (d.step (.call i)).outcome? i = some (Call.outcomeOf d.connection r) := by
  have tabled : Tabled d.family i k := ⟨call, here, by simp [Call.tabled?, place]⟩
  obtain ⟨r, reply⟩ := finish.reply h tabled
  refine ⟨r, reply, ?_⟩
  have stepped : call.step d.now d.connection =
      some ({ d.connection with replies := d.connection.replies.erase k },
        { call with phase := .ended (Call.outcomeOf d.connection r) }) := by
    simp [Call.step, place, reply]
  have here' : d.calls[i]? = some call := here
  have short : i < d.calls.length := (List.getElem?_eq_some_iff.mp here).1
  simp only [step, here', Option.bind_some, stepped]
  simp [outcome?, family, short, Call.result?]

/-! ## Requests that were told -/

/-- A request that does not wait any more keeps its response as long as it is in the tables. -/
theorem Change.get?_replies (change : Change d d') (h : Correlated d.connection d.family) {i k : Nat}
    (gone : k ∉ d.connection.pending) (tabled : Tabled d.family i k) (tabled' : Tabled d'.family i k) :
    d'.connection.replies.get? k = d.connection.replies.get? k := by
  cases change with
  | stayed | begun | fired | told | reached | passed => rfl
  | touched c effect => exact effect.get?_replies gone
  | stepped j call c phase here step =>
    by_cases mine : call.tabled? = some k
    · -- the call itself, which is still in the tables
      obtain rfl := h.distinct i j k tabled.numbered ⟨call, here, Call.number?_of_tabled? mine⟩
      rw [family_set here { d with connection := c, calls := d.calls.set i _ } rfl,
        tabled_update] at tabled'
      cases step with
      | written id _ place wrote =>
        obtain ⟨-, rfl⟩ := Connection.canWrite_of_write wrote
        rfl
      | _ => simp_all [Call.tabled?]
    · exact step.get?_replies_of_ne mine

/-- How a request goes on that was told of the end while it was in the table: it fetches the
    response; if it had not written its request, that may fail first. -/
inductive Told (c : Connection) (k : Nat) (mayFail : Prop) (call : Call) : Prop where
  | waiting (deadline : Nat) (place : call.phase = .waiting k deadline)
      (reply : c.replies.get? k = some (c.terminationResponse k))
  | ended (place : call.phase = .ended (.error (.terminated c.name)))
  | registered (may : mayFail) (place : call.phase = .registered k)
      (reply : c.replies.get? k = some (c.terminationResponse k))
  | withdrawing (may : mayFail) (e : ClientError) (unwritten : e.Unwritten)
      (place : call.phase = .withdrawing k e)
  | failed (may : mayFail) (e : ClientError) (unwritten : e.Unwritten)
      (place : call.phase = .ended (.error e))

theorem terminationResponse_eq {c c' : Connection} (name : c'.name = c.name) (k : Nat) :
    c'.terminationResponse k = c.terminationResponse k := by
  simp [Connection.terminationResponse, Connection.terminatedError, name]

namespace Told

variable {k : Nat} {mayFail : Prop} {call call' : Call}

/-- A request that stays where it is has been told as before. -/
theorem congr {c c' : Connection} (told : Told c k mayFail call) (place : call'.phase = call.phase)
    (name : c'.name = c.name)
    (replies : call.tabled? = some k → c'.replies.get? k = c.replies.get? k) :
    Told c' k mayFail call' := by
  have reply : call.tabled? = some k → c.replies.get? k = some (c.terminationResponse k) →
      c'.replies.get? k = some (c'.terminationResponse k) := fun tabled reply => by
    rw [replies tabled, reply, terminationResponse_eq name]
  cases told with
  | waiting deadline here told =>
    exact .waiting deadline (place.trans here) (reply (by simp [Call.tabled?, here]) told)
  | ended here => exact .ended (by rw [place, here, name])
  | registered may here told =>
    exact .registered may (place.trans here) (reply (by simp [Call.tabled?, here]) told)
  | withdrawing may e unwritten here => exact .withdrawing may e unwritten (place.trans here)
  | failed may e unwritten here => exact .failed may e unwritten (place.trans here)

/-- A request that was told takes a step. -/
theorem step {now : Nat} {c c' : Connection} {phase : CallPhase} (told : Told c k mayFail call)
    (step : Call.Step now c call c' phase) (place : call'.phase = phase) :
    Told c' k mayFail call' := by
  cases told with
  | waiting deadline here reply =>
    cases step with
    | answered id _ r before fetched =>
      obtain ⟨rfl, -⟩ := CallPhase.waiting.inj (here.symm.trans before)
      obtain rfl := Option.some.inj (reply.symm.trans fetched)
      exact .ended (by rw [place, Call.outcomeOf_terminationResponse])
    | gaveUp id _ e before noReply =>
      obtain ⟨rfl, -⟩ := CallPhase.waiting.inj (here.symm.trans before)
      simp [noReply] at reply
    | _ => simp_all
  -- it has ended, or only the end is left to it
  | ended here | failed _ _ _ here => cases step <;> simp_all
  | registered may here reply =>
    cases step with
    | written id _ before wrote =>
      obtain ⟨-, rfl⟩ := Connection.canWrite_of_write wrote
      obtain rfl := CallPhase.registered.inj (here.symm.trans before)
      exact .waiting _ place reply
    | unwritten id e before failed =>
      obtain rfl := CallPhase.registered.inj (here.symm.trans before)
      rcases (Connection.canWrite_eq_false_of_write failed).2 with rfl | rfl
      · exact .withdrawing may _ .notConnected place
      · exact .withdrawing may _ .brokenPipe place
    | _ => simp_all
  | withdrawing may e unwritten here =>
    cases step with
    | withdrawn id e' before =>
      obtain ⟨-, rfl⟩ := CallPhase.withdrawing.inj (here.symm.trans before)
      exact .failed may e unwritten place
    | _ => simp_all

/-- What comes of a request that was told. -/
theorem result {c : Connection} (told : Told c k mayFail call) {result : Except ClientError Json}
    (ended : call.result? = some result) :
    result = .error (.terminated c.name) ∨
      mayFail ∧ ∃ e : ClientError, e.Unwritten ∧ result = .error e := by
  cases told with
  | ended here => exact Or.inl (by simpa [Call.result?, here] using ended.symm)
  | failed may e unwritten here =>
    exact Or.inr ⟨may, e, unwritten, by simpa [Call.result?, here] using ended.symm⟩
  | waiting _ here | registered _ here | withdrawing _ _ _ here => simp [Call.result?, here] at ended

end Told

theorem Change.keeps_told (change : Change d d') (finish : d.Over) (h : Correlated d.connection d.family)
    {i k : Nat} {mayFail : Prop} {call : Call} (here : d.family i = some call)
    (told : Told d.connection k mayFail call) :
    ∃ call', d'.family i = some call' ∧ Told d'.connection k mayFail call' := by
  obtain ⟨call', here', same | step⟩ := change.kept here
  · refine ⟨call', here', told.congr same change.name_eq fun tabled => ?_⟩
    have tabled' : call'.tabled? = some k := by simpa [Call.tabled?, same] using tabled
    exact change.get?_replies h (by simp [finish.pending]) ⟨call, here, tabled⟩ ⟨call', here', tabled'⟩
  · exact ⟨call', here', told.step step rfl⟩

/-- A request that has no outcome comes closer to it, or stays where it is. -/
theorem Change.turnsLeft_le (change : Change d d') (finish : d.Over)
    (h : Correlated d.connection d.family) {i : Nat} {call : Call} (here : d.family i = some call) :
    ∃ call', d'.family i = some call' ∧ call'.turnsLeft ≤ call.turnsLeft := by
  obtain ⟨call', here', same | step⟩ := change.kept here
  · exact ⟨call', here', by simp [Call.turnsLeft, same]⟩
  · refine ⟨call', here', ?_⟩
    have closer := finish.turnsLeft_lt h here step
    simpa [Call.turnsLeft] using Nat.le_of_lt closer

end Dialogue

namespace Channel

variable {name : String} {s s' : Channel}

/-- Whether a move is a turn of a request. -/
def Move.isTurn (i : Nat) : Move → Bool
  | .talk (.call j) _ => i == j
  | _ => false

/-- Whether a move is a turn of a request in which it does not have to wait for the writer. -/
def isFreeTurn (i : Nat) (s : Channel) (move : Move) : Bool :=
  move.isTurn i && !s.connection.busy

/-- How many turns a request has taken in which it did not have to wait for the writer. -/
def turnsTaken (name : String) (moves : List Move) (i : Nat) : Nat :=
  ((machine name).recorded (fun s move => [isFreeTurn i s move]) moves).count true

theorem turnsTaken_concat (moves : List Move) (move : Move) (i : Nat) :
    turnsTaken name (moves ++ [move]) i = turnsTaken name moves i +
      if isFreeTurn i ((machine name).after moves) move = true then 1 else 0 := by
  rw [turnsTaken, Machine.recorded_concat, List.count_append, List.count_singleton]
  simp [turnsTaken]

theorem Change.over (change : Change s s') (h : s.dialogue.Over) : s'.dialogue.Over where
  terminated := change.terminated h.terminated
  pending := List.eq_nil_iff_forall_not_mem.mpr fun k among => by
    simpa [h.pending] using change.mem_pending h.terminated among

/-- After a drain the connection is over, for ever. -/
theorem over_from {before : List Move} {move : Move}
    (drains : ((machine name).after before).Drains move) (later : List Move) :
    ((machine name).after (before ++ [move] ++ later)).dialogue.Over := by
  refine (machine name).run_induction_from (before ++ [move]) (fun _ s => s.dialogue.Over) ?_
    (fun more last h => ?_) later
  · rw [after_concat]
    obtain ⟨-, terminated, pending, -⟩ := drains.step
    exact ⟨terminated.trans ((ending_after before).terminated_of_drains drains), pending⟩
  · rw [after_concat]
    exact (step_change _ last).over h

/-- The response of the end names the server. -/
theorem terminationResponse_named {c : Connection} (named : c.name = name) (k : Nat) :
    c.terminationResponse k = .failure (.number (UInt64.ofNat k))
      { code := ErrorCode.serverTerminated
        message := name ++ " language server terminated unexpectedly" } := by
  subst named
  rfl

/-- Every request in the table is told when it is drained. -/
theorem told_at {before : List Move} {move : Move}
    (drains : ((machine name).after before).Drains move) {i k : Nat}
    (waits : ((machine name).after before).dialogue.Waits i k) :
    ((machine name).after (before ++ [move])).connection.replies.get? k =
      some (((machine name).after (before ++ [move])).connection.terminationResponse k) := by
  rw [Dialogue.terminationResponse_eq ((name_after _).trans (name_after before).symm),
    after_concat, drains.step.2.2.2, Connection.get?_replies_drain, if_pos waits.2]

/-- A request that waits when the table is drained, and has not failed before, goes on as `Told`
    says. -/
theorem told_from {before : List Move} {move : Move}
    (drains : ((machine name).after before).Drains move) {i k : Nat} {call : Call}
    (here : ((machine name).after before).dialogue.family i = some call)
    (waits : ((machine name).after before).dialogue.Waits i k) (sound : call.error? = none)
    (later : List Move) :
    ∃ call', ((machine name).after (before ++ [move] ++ later)).dialogue.family i = some call' ∧
      Dialogue.Told ((machine name).after (before ++ [move] ++ later)).connection k
        (call.phase = .registered k) call' := by
  refine (machine name).run_induction_from (before ++ [move]) (fun _ s =>
    ∃ call', s.dialogue.family i = some call' ∧
      Dialogue.Told s.connection k (call.phase = .registered k) call') ?_ (fun more last h => ?_) later
  · have reply := told_at drains waits
    have there : ((machine name).after (before ++ [move])).dialogue.family i = some call := by
      rw [after_concat]
      simpa [Dialogue.family, drains.step.1] using here
    refine ⟨call, there, ?_⟩
    -- a request in the table has registered, waits, or has failed
    have correlated := @correlated_after name before
    have tabled : call.tabled? = some k := by
      by_contra outside
      refine (correlated.untabled i k waits.1 ?_).1 waits.2
      rintro ⟨call', here', tabled⟩
      obtain rfl := Option.some.inj (here.symm.trans here')
      exact outside tabled
    cases place : call.phase with
    | registered id =>
      obtain rfl : id = k := by simpa [Call.tabled?, place] using tabled
      exact .registered rfl place reply
    | waiting id deadline =>
      obtain rfl : id = k := by simpa [Call.tabled?, place] using tabled
      exact .waiting deadline place reply
    | withdrawing id e | abandoning id e => simp [Call.error?, place] at sound
    | entering | admitted | notifying | ended => simp [Call.tabled?, place] at tabled
  · obtain ⟨call', here', told⟩ := h
    rw [after_concat]
    exact (step_change_dialogue _ last).keeps_told (over_from drains more) (correlated_after _)
      here' told

/-- A request that was told fails with the error of the end, or cannot be written. -/
theorem outcome_of_told {before : List Move} {move : Move}
    (drains : ((machine name).after before).Drains move) {i k : Nat} {call : Call}
    (here : ((machine name).after before).dialogue.family i = some call)
    (waits : ((machine name).after before).dialogue.Waits i k) (sound : call.error? = none)
    (later : List Move) {result : Except ClientError Json}
    (outcome : ((machine name).after (before ++ [move] ++ later)).dialogue.outcome? i = some result) :
    result = .error (.terminated name) ∨
      call.phase = .registered k ∧ ∃ e : ClientError, e.Unwritten ∧ result = .error e := by
  obtain ⟨call', here', told⟩ := told_from drains here waits sound later
  rw [Dialogue.outcome?, here', Option.bind_some] at outcome
  have cases := told.result outcome
  rwa [name_after] at cases

/-- Once the connection is over, a request that waits ends with the response that it has. -/
theorem answered_step (finish : s.dialogue.Over) (h : Correlated s.connection s.dialogue.family)
    {i k deadline : Nat} {call : Call} (here : s.dialogue.family i = some call)
    (place : call.phase = .waiting k deadline) :
    ∃ r, s.connection.replies.get? k = some r ∧
      (s.step (.talk (.call i) rfl)).dialogue.outcome? i = some (Call.outcomeOf s.connection r) :=
  finish.answered h here place

/-- Once the connection is over, a turn of its own brings a request closer to its outcome, if it does
    not have to wait for the writer, and no other move keeps it away. -/
theorem turnsLeft_step (finish : s.dialogue.Over) (h : Correlated s.connection s.dialogue.family)
    {i : Nat} {call : Call} (here : s.dialogue.family i = some call) (move : Move) :
    ∃ call', (s.step move).dialogue.family i = some call' ∧
      call'.turnsLeft ≤ call.turnsLeft - if isFreeTurn i s move = true then 1 else 0 := by
  -- no move takes a request further away; its own turn brings it nearer
  have other := (step_change_dialogue s move).turnsLeft_le finish h here
  by_cases mine : isFreeTurn i s move = true ∧ call.turnsLeft ≠ 0
  · obtain ⟨turn, left⟩ := mine
    obtain ⟨own, free⟩ : move.isTurn i = true ∧ s.connection.busy = false := by
      simpa [isFreeTurn] using turn
    obtain ⟨talks, rfl⟩ : ∃ talks, move = .talk (.call i) talks := by
      unfold Move.isTurn at own
      split at own
      · rename_i j talks
        obtain rfl : i = j := by simpa using own
        exact ⟨talks, rfl⟩
      · simp at own
    obtain ⟨c, call', stepped⟩ := finish.step_call h here left free
    obtain ⟨phase, rfl, effect⟩ := Call.step_effect stepped
    have here' : s.dialogue.calls[i]? = some call := here
    have short : i < s.dialogue.calls.length := (List.getElem?_eq_some_iff.mp here').1
    refine ⟨{ call with phase }, ?_, ?_⟩
    · simp only [step, Dialogue.step, here', Option.bind_some, stepped]
      simp [Dialogue.family, short]
    · have closer := finish.turnsLeft_lt h here effect
      simp only [turn, if_true]
      omega
  · obtain ⟨call', here', le⟩ := other
    refine ⟨call', here', ?_⟩
    split
    -- it had no turns left, so it has its outcome
    · rename_i turn
      have none : call.turnsLeft = 0 := by simpa [turn] using mine
      omega
    · omega

/-- Once the connection is over, two turns of its own bring a request to its outcome, those not counted
    in which it has to wait for the writer. -/
theorem outcome_of_turns {moves : List Move}
    (finish : ∀ more, ((machine name).after (moves ++ more)).dialogue.Over) {i : Nat}
    (begun : i < ((machine name).after moves).dialogue.calls.length) (more : List Move) :
    turnsTaken name moves i ≤ turnsTaken name (moves ++ more) i ∧
    ∃ call, ((machine name).after (moves ++ more)).dialogue.family i = some call ∧
      call.turnsLeft ≤ 2 - (turnsTaken name (moves ++ more) i - turnsTaken name moves i) := by
  refine (machine name).run_induction_from moves (fun more s =>
    turnsTaken name moves i ≤ turnsTaken name (moves ++ more) i ∧
    ∃ call, s.dialogue.family i = some call ∧
      call.turnsLeft ≤ 2 - (turnsTaken name (moves ++ more) i - turnsTaken name moves i))
    ?_ (fun more move h => ?_) more
  · rw [List.append_nil]
    exact ⟨Nat.le_refl _, _, List.getElem?_eq_getElem begun, by simpa using Call.turnsLeft_le _⟩
  · obtain ⟨grown, call, here, left⟩ := h
    have correlated := @correlated_after name (moves ++ more)
    obtain ⟨call', here', closer⟩ := turnsLeft_step (finish more) correlated here move
    rw [after_concat, ← List.append_assoc, turnsTaken_concat]
    refine ⟨by omega, call', here', ?_⟩
    omega

/-- The read loop finds that nothing more will come. -/
def Lost (s : Channel) : Prop :=
  s.connection.readPhase = .reading ∧ ∃ reader,
    s.connection.reader.read = .ended reader ∨
      ∃ e, e.isMalformed = false ∧ s.connection.reader.read = .failed e reader

/-- A read loop that has lost the connection sets the flag, and is about to drain. -/
theorem Lost.step (lost : s.Lost) :
    (s.step (.talk .read rfl)).connection.terminated = true ∧
      (s.step (.talk .read rfl)).Drains (.talk .read rfl) := by
  obtain ⟨place, reader, read⟩ := lost
  have left : ∃ reader, s.connection.stepRead = some { s.connection with reader }.leave := by
    by_cases closing : s.connection.shutdown = true
    · refine ⟨s.connection.reader, ?_⟩
      unfold Connection.stepRead
      rw [place]
      exact if_pos closing
    · rcases read with read | ⟨e, broken, read⟩
      · exact ⟨reader, by simp [Connection.stepRead, place, closing, read]⟩
      · exact ⟨reader, by simp [Connection.stepRead, place, closing, read, broken]⟩
  obtain ⟨reader, left⟩ := left
  have step : (s.step (.talk .read rfl)).connection = { s.connection with reader }.leave := by
    simp [Channel.step, Dialogue.step, Dialogue.touch, connection, left]
  exact ⟨by rw [step]; rfl, by simp only [Drains]; rw [step]; rfl⟩

/-! ## The main result -/

/-- **The end of a connection reaches every request.**  A read loop that loses the connection sets the
    flag of the end.  Once the flag has been set it stays so, and

    * as long as requests are in the table somebody is about to drain it, and a request that has not
      come into the table ends at its next turn with the error of the end: nothing is written, and
      no table changes.

    Once somebody has drained the table it is empty ever after, and

    * every request that was in it has at once the response of the end, and fails with its error,
      unless it had given up before, or had not written its request and cannot do so either;
    * a request that waits fetches its response with its next turn, whatever the time;
    * every request has its outcome after two turns of its own, those not counted in which it finds
      the writer held up by a message that the server does not take. -/
theorem termination_reaches_requests (name : String) (moves : List Move) :
    let run := machine name
    let s := run.after moves
    (s.Lost → (s.step (.talk .read rfl)).connection.terminated = true ∧
      (s.step (.talk .read rfl)).Drains (.talk .read rfl)) ∧
    (run.Once moves (·.connection.terminated = true) →
      s.connection.terminated = true ∧
      ((∃ move, s.Drains move) ∨ s.connection.pending = []) ∧
      ∀ i call, s.dialogue.family i = some call →
        (call.phase = .entering ∨ ∃ k, call.phase = .admitted k) →
        s.step (.talk (.call i) rfl) = { s with
          dialogue := { s.dialogue with
            calls := s.dialogue.calls.set i
              { call with phase := .ended (.error (.terminated name)) } } }) ∧
    ∀ before move later, moves = before ++ [move] ++ later → (run.after before).Drains move →
      s.connection.terminated = true ∧ s.connection.pending = [] ∧
      (∀ i k, (run.after before).dialogue.Waits i k →
        (run.after (before ++ [move])).connection.replies.get? k =
          some (.failure (.number (UInt64.ofNat k))
            { code := ErrorCode.serverTerminated
              message := name ++ " language server terminated unexpectedly" })) ∧
      (∀ i k call, (run.after before).dialogue.family i = some call →
        (run.after before).dialogue.Waits i k → call.error? = none →
        ∀ result, s.dialogue.outcome? i = some result →
          result = .error (.terminated name) ∨
            call.phase = .registered k ∧ ∃ e : ClientError, e.Unwritten ∧ result = .error e) ∧
      (∀ i k deadline call, s.dialogue.family i = some call → call.phase = .waiting k deadline →
        ∃ r, s.connection.replies.get? k = some r ∧
          (s.step (.talk (.call i) rfl)).dialogue.outcome? i =
            some (Call.outcomeOf s.connection r)) ∧
      ∀ soon more, later = soon ++ more →
        ∀ i < (run.after (before ++ [move] ++ soon)).dialogue.calls.length,
          turnsTaken name (before ++ [move] ++ soon) i + 2 ≤ turnsTaken name moves i →
          s.dialogue.outcome? i ≠ none := by
  intro run s
  refine ⟨Lost.step, fun ⟨before, later, split, past⟩ => ?_, ?_⟩
  · have terminated : s.connection.terminated = true := by
      -- the flag is never taken back
      have stays := terminated_from before past later
      rwa [← split] at stays
    refine ⟨terminated, (ending_after moves).drained terminated, fun i call here place => ?_⟩
    have away := Dialogue.turned_away terminated here place
    have named : s.connection.name = name := name_after moves
    simp only [step, away]
    rw [Connection.terminatedError, named]
  · rintro before move later rfl drains
    have finish := over_from drains later
    have correlated := @correlated_after name (before ++ [move] ++ later)
    refine ⟨finish.terminated, finish.pending, fun i k waits => ?_, ?_, ?_, ?_⟩
    · exact (told_at drains waits).trans (congrArg some (terminationResponse_named (name_after _) k))
    · exact fun i k call here waits sound result => outcome_of_told drains here waits sound later
    · exact fun i k deadline call here place => answered_step finish correlated here place
    · rintro soon more rfl i begun turns
      -- the end stays, so that each turn that follows counts
      have over' : ∀ more, ((machine name).after (before ++ [move] ++ soon ++ more)).dialogue.Over :=
        fun more => by
          rw [List.append_assoc _ soon]
          exact over_from drains (soon ++ more)
      obtain ⟨-, call, here, left⟩ := outcome_of_turns over' begun more
      rw [List.append_assoc _ soon] at here left
      have none : call.turnsLeft = 0 := by omega
      have outcome : s.dialogue.outcome? i = call.result? := by
        rw [Dialogue.outcome?, here, Option.bind_some]
      rw [outcome]
      exact Call.turnsLeft_eq_zero_iff.mp none

/-- A request waits, and another one has a number, when the server hangs up. -/
def hangingUp : List Move :=
  [.of .listen, .of (.request "textDocument/hover" none false), .of (.call 0), .of (.call 0),
    .of (.call 0), .of (.request "shutdown" none false), .of (.call 1), .of .hangUp, .of .read]

/-- Both fail with the error of the end, the one that waits and the one that sees the flag. -/
theorem termination_reaches_requests_hangingUp :
    ((machine "rust").after hangingUp).Drains (.talk .read rfl) ∧
    ((machine "rust").after hangingUp).dialogue.Waits 0 1 ∧
    ((machine "rust").after (hangingUp ++ [.talk .read rfl])).connection.pending = [] ∧
    ((machine "rust").after (hangingUp ++ [.talk .read rfl])).connection.replies.get? 1 =
      some (.failure (.number 1)
        { code := ErrorCode.serverTerminated
          message := "rust language server terminated unexpectedly" }) ∧
    ((machine "rust").after (hangingUp ++ [.talk .read rfl, .talk (.call 0) rfl,
      .talk (.call 1) rfl])).dialogue.outcome? 0 = some (.error (.terminated "rust")) ∧
    ((machine "rust").after (hangingUp ++ [.talk .read rfl, .talk (.call 0) rfl,
      .talk (.call 1) rfl])).dialogue.outcome? 1 = some (.error (.terminated "rust")) := by
  have drains : ((machine "rust").after hangingUp).Drains (.talk .read rfl) := by rfl
  have waits : ((machine "rust").after hangingUp).dialogue.Waits 0 1 :=
    ⟨⟨_, rfl, rfl⟩, by decide⟩
  have law := termination_reaches_requests "rust" (hangingUp ++ [.talk .read rfl])
  obtain ⟨-, pending, told, -⟩ := law.2.2 hangingUp (.talk .read rfl) [] (by simp) drains
  exact ⟨drains, waits, pending, told 0 1 waits, by rfl, by rfl⟩

end Channel

end LanguageClient
