import LanguageClient.Proofs.Connection.Termination
/-!
# The errors of the server

The client marks the responses that it makes up itself by codes of its own: the response of the end
of a connection has the code `ErrorCode.serverTerminated`, and `ErrorCode.requestCancelled` stands for
a token that has fired.  A server that answers with one of these codes is taken for the client.  With
any other code the error of the server comes through as it is (`reported_after`), and a request fails
by the end of the connection only when the connection has ended, or when the server says so
(`blamed_after`).

A response that was assigned to a request that waits stays in its place until the request fetches it,
whatever else happens (`Fetches`).
-/

namespace LanguageClient

/-- An error has none of the codes that the client uses for errors of its own. -/
def ResponseError.Foreign (e : ResponseError) : Prop :=
  e.code ≠ ErrorCode.serverTerminated ∧ e.code ≠ ErrorCode.requestCancelled

instance (e : ResponseError) : Decidable e.Foreign :=
  inferInstanceAs (Decidable (_ ∧ _))

namespace Call

variable {c : Connection} {r : Response} {e : ResponseError}

/-- An error of the server comes through as it is. -/
theorem outcomeOf_of_foreign (error : r.outcome = .error e) (foreign : e.Foreign) :
    outcomeOf c r = .error (.server e) := by
  simp [outcomeOf, error, foreign.1, foreign.2]

theorem outcome_of_terminated {server : String}
    (outcome : outcomeOf c r = .error (.terminated server)) :
    server = c.name ∧ ∃ e, r.outcome = .error e ∧ e.code = ErrorCode.serverTerminated := by
  unfold outcomeOf at outcome
  split at outcome
  · simp at outcome
  · rename_i e error
    split at outcome
    · rename_i code
      exact ⟨(ClientError.terminated.inj (Except.error.inj outcome)).symm, e, error, code⟩
    · split at outcome <;> simp at outcome

end Call

namespace Dialogue

variable {d d' : Dialogue}

/-! ## A response that waits to be fetched -/

/-- A request fetches a response with its next step, or has fetched it. -/
inductive Fetches (c : Connection) (k : Nat) (r : Response) (call : Call) : Prop where
  | waiting (deadline : Nat) (place : call.phase = .waiting k deadline)
      (reply : c.replies.get? k = some r)
  | ended (place : call.phase = .ended (Call.outcomeOf { name := c.name } r))

namespace Fetches

variable {c c' : Connection} {k : Nat} {r : Response} {call call' : Call}

theorem congr (fetches : Fetches c k r call) (place : call'.phase = call.phase)
    (name : c'.name = c.name) (replies : call.tabled? = some k → c'.replies.get? k = c.replies.get? k) :
    Fetches c' k r call' := by
  cases fetches with
  | waiting deadline here reply =>
    exact .waiting deadline (place.trans here) (by rw [replies (by simp [Call.tabled?, here]), reply])
  | ended here => exact .ended (by rw [place, here, name])

/-- The response wins over the time and the token. -/
theorem step {now : Nat} {phase : CallPhase} (fetches : Fetches c k r call)
    (step : Call.Step now c call c' phase) (place : call'.phase = phase) :
    call'.phase = .ended (Call.outcomeOf { name := c'.name } r) := by
  have named := step.name
  cases fetches with
  | waiting deadline here reply =>
    cases step with
    | answered id _ r' before fetched =>
      obtain ⟨rfl, -⟩ := CallPhase.waiting.inj (here.symm.trans before)
      obtain rfl := Option.some.inj (reply.symm.trans fetched)
      rw [place, outcomeOf_eq named.symm]
    | gaveUp id _ e before noReply =>
      obtain ⟨rfl, -⟩ := CallPhase.waiting.inj (here.symm.trans before)
      simp [noReply] at reply
    | _ => simp_all
  | ended here => cases step <;> simp_all

/-- What a request has come to that fetches a response. -/
theorem result (fetches : Fetches c k r call) :
    call.result? = none ∨ call.result? = some (Call.outcomeOf { name := c.name } r) := by
  cases fetches with
  | waiting deadline place reply => exact Or.inl (by simp [Call.result?, place])
  | ended place => exact Or.inr (by simp [Call.result?, place])

end Fetches

/-- A response stays in its place until it is fetched. -/
theorem Change.fetches (change : Change d d') (h : Correlated d.connection d.family) {i k : Nat}
    {r : Response} {call : Call} (here : d.family i = some call)
    (fetches : Fetches d.connection k r call) :
    ∃ call', d'.family i = some call' ∧ Fetches d'.connection k r call' := by
  obtain ⟨call', here', same | step⟩ := change.kept here
  · refine ⟨call', here', fetches.congr same change.name_eq fun tabled => ?_⟩
    have tabled' : call'.tabled? = some k := by simpa [Call.tabled?, same] using tabled
    have gone : k ∉ d.connection.pending := by
      cases fetches with
      | waiting deadline place reply =>
        rw [h.tabled i k ⟨call, here, tabled⟩, reply]
        simp
      | ended place => simp [Call.tabled?, place] at tabled
    exact change.get?_replies h gone ⟨call, here, tabled⟩ ⟨call', here', tabled'⟩
  · exact ⟨call', here', .ended (fetches.step step rfl)⟩

/-- The step of the read loop that assigns a response to a request that waits. -/
theorem Assigns.fetches {i k deadline : Nat} {r : Response} {call : Call} (assigns : d.Assigns i k r)
    (here : d.family i = some call) (place : call.phase = .waiting k deadline) :
    (d.step .read).family i = some call ∧ Fetches (d.step .read).connection k r call := by
  obtain ⟨id, settling, number, -, waits⟩ := assigns
  rcases d.connection.settle_cases id r with ⟨l, number', -, settled⟩ | ⟨idle, -⟩
  · obtain rfl : k = l := Option.some.inj (number.symm.trans number')
    have step : d.step .read =
        { d with connection := { d.connection.settle id r with readPhase := .reading } } := by
      simp [Dialogue.step, touch, Connection.stepRead, settling]
    rw [step, settled]
    exact ⟨here, .waiting deadline place (by simp)⟩
  · exact absurd waits (idle k number)

/-- The turn of a request that fetches a response brings it to its outcome. -/
theorem Fetches.turn {i k : Nat} {r : Response} {call : Call}
    (fetches : Fetches d.connection k r call) (here : d.family i = some call) :
    (d.step (.call i)).outcome? i = some (Call.outcomeOf { name := d.connection.name } r) := by
  cases fetches with
  | waiting deadline place reply =>
    have stepped : call.step d.now d.connection =
        some ({ d.connection with replies := d.connection.replies.erase k },
          { call with phase := .ended (Call.outcomeOf d.connection r) }) := by
      simp [Call.step, place, reply]
    have here' : d.calls[i]? = some call := here
    have short : i < d.calls.length := (List.getElem?_eq_some_iff.mp here').1
    simp only [Dialogue.step, here', Option.bind_some, stepped]
    simp [outcome?, family, short, Call.result?, outcomeOf_eq rfl r]
  | ended place =>
    have stepped : call.step d.now d.connection = none := by simp [Call.step, place]
    have here' : d.calls[i]? = some call := here
    simp only [Dialogue.step, here', Option.bind_some, stepped]
    simp [outcome?, here, Call.result?, place]

/-- A request that is in a table after a change had its number before. -/
theorem Change.numbered_of_tabled (change : Change d d') {i k : Nat} (tabled : Tabled d'.family i k) :
    Numbered d.family i k := by
  obtain ⟨call', here', inTable⟩ := tabled
  rcases change.at here' with ⟨call, here, same⟩ | ⟨-, fresh⟩ | ⟨call, here, step⟩
  · exact ⟨call, here, Call.number?_of_tabled? (by simpa [Call.tabled?, same] using inTable)⟩
  · simp [Call.tabled?, fresh] at inTable
  · exact ⟨call, here, step.number? inTable⟩

/-- A move that is neither made by the read loop nor by somebody who closes the connection, nor is a
    step of a request, leaves the responses alone. -/
theorem replies_step {move : Move} (other : move.isClosing = false) (notRead : move ≠ .read)
    (notCall : ∀ i, move ≠ .call i) : (d.step move).connection.replies = d.connection.replies := by
  -- most moves that leave the responses alone are steps of the server's side
  have touched : ∀ {c : Option Connection}, (∀ c', c = some c' → c'.replies = d.connection.replies) →
      (d.touch c).connection.replies = d.connection.replies := by
    intro c same
    cases c with
    | none => rfl
    | some c => exact same c rfl
  cases move with
  | read => exact absurd rfl notRead
  | call i => exact absurd rfl (notCall i)
  | beginClose | close => simp [Move.isClosing] at other
  | handleRequests method =>
    refine touched fun c' h => ?_
    unfold Connection.onRequest at h
    split at h
    · simp [Except.toOption] at h
    · obtain rfl := by simpa [Except.toOption] using h
      rfl
  | handleNotifications method =>
    refine touched fun c' h => ?_
    unfold Connection.onNotification at h
    split at h
    · simp [Except.toOption] at h
    · obtain rfl := by simpa [Except.toOption] using h
      rfl
  | listen =>
    refine touched fun c' h => ?_
    unfold Connection.listen at h
    split at h
    · simp [Except.toOption] at h
    · obtain rfl := by simpa [Except.toOption] using h
      rfl
  | notify n =>
    simp only [step]
    split
    · rfl
    · rw [Connection.tryWrite_eq]
  | handled crashed =>
    refine touched fun c' h => ?_
    obtain rfl := by simpa using h
    split
    · exact d.connection.steady_crashHandling.replies
    · exact d.connection.steady_finishHandling.replies
  | job j => exact touched fun c' h => (Connection.steady_stepJob h).replies
  | finishJob j outcome => rfl
  | request | fire | feed | hangUp | reach | stall | pass => rfl

end Dialogue

namespace Channel

variable {name : String} {s s' : Channel} {moves : List Move}

/-! ## Where responses come from -/

/-- A response comes into the table when it is assigned, or when somebody drains. -/
theorem get?_replies_step {move : Move} (idle : ¬ s.Drains move) {k : Nat} {r : Response}
    (reply : (s.step move).connection.replies.get? k = some r) :
    s.connection.replies.get? k = some r ∨
      ∃ id, s.connection.readPhase = .settling id r ∧ id.asNumber = some k ∧
        k ∈ s.connection.pending := by
  cases move with
  | readOn =>
    refine Or.inl ?_
    cases h : s.connection.readOn with
    | none => simpa [step, Dialogue.touch, h, connection] using reply
    | some c =>
      have reply : c.replies.get? k = some r := by
        simpa [step, Dialogue.touch, h, connection] using reply
      rwa [(Connection.steady_readOn h).replies] at reply
  | close => exact Or.inl reply
  | closer i =>
    refine Or.inl ?_
    simp only [step] at reply
    split at reply
    · rename_i c place stepped
      obtain ⟨place₀, here, stepped⟩ := Option.bind_eq_some_iff.mp stepped
      have steady := Connection.steady_stepClose stepped (by rintro rfl; exact idle here)
      rwa [connection, steady.replies] at reply
    · exact reply
  | talk move other =>
    by_cases notCall : ∃ i, move = .call i
    · obtain ⟨i, rfl⟩ := notCall
      refine Or.inl ?_
      simp only [step, Dialogue.step] at reply
      split at reply
      · rename_i c call stepped
        obtain ⟨call₀, -, stepped⟩ := Option.bind_eq_some_iff.mp stepped
        obtain ⟨phase, -, effect⟩ := Call.step_effect stepped
        exact effect.get?_replies reply
      · exact reply
    -- only the read loop is left, and it assigns one response at a time
    · by_cases notRead : move = .read
      · subst notRead
        cases read : s.connection.stepRead with
        | none => exact Or.inl (by simpa [step, Dialogue.step, Dialogue.touch, read] using reply)
        | some c =>
          have reply : c.replies.get? k = some r := by
            simpa [step, Dialogue.step, Dialogue.touch, read] using reply
          rcases Connection.stepRead_cases read idle with steady | ⟨id, r', place, settled⟩
          · exact Or.inl (by rwa [steady.replies] at reply)
          · rw [settled.replies] at reply
            rcases s.connection.settle_cases id r' with ⟨l, number, waits, same⟩ | ⟨-, same⟩
            · rw [same] at reply
              by_cases here : l = k
              · subst here
                obtain rfl : r' = r := by simpa using reply
                exact Or.inr ⟨id, place, number, waits⟩
              · exact Or.inl (by simpa [here] using reply)
            · exact Or.inl (by rwa [same] at reply)
      · refine Or.inl ?_
        simp only [step] at reply
        rwa [connection, Dialogue.replies_step other notRead fun i same => notCall ⟨i, same⟩] at reply

/-- What is known of a response that a request has: it was assigned to the request, or the connection
    has ended. -/
def Told (name : String) (moves : List Move) (i k : Nat) (r : Response) : Prop :=
  (machine name).Once moves (·.dialogue.Assigns i k r) ∨
    (machine name).Once moves (·.connection.terminated = true)

theorem told_after (moves : List Move) :
    Sourced ((machine name).after moves).connection ((machine name).after moves).dialogue.family
      (Told name moves) := by
  refine (machine name).run_induction (fun moves s =>
    Sourced s.connection s.dialogue.family (Told name moves)) ?_ ?_ moves
  · intro i k r tabled
    simp [machine, Dialogue.machine, Tabled, Dialogue.family] at tabled
  · intro moves move ih i k r tabled reply
    by_cases past : ((machine name).after (moves ++ [move])).connection.terminated = true
    · exact Or.inr (Machine.Once.now past)
    have change := step_change_dialogue ((machine name).after moves) move
    have correlated := @correlated_after name moves
    rw [after_concat] at tabled reply past
    -- nobody drains, for then the connection would have ended
    have idle : ¬ ((machine name).after moves).Drains move := fun drains =>
      past (((step_change _ move)).terminated ((ending_after moves).terminated_of_drains drains))
    have numbered := change.numbered_of_tabled tabled
    rcases get?_replies_step idle reply with old | ⟨id, place, number, waits⟩
    · have tabled : Tabled ((machine name).after moves).dialogue.family i k := by
        by_contra outside
        simp [(correlated.untabled i k numbered outside).2] at old
      exact (ih i k r tabled old).imp (·.append [move]) (·.append [move])
    · exact Or.inl (Machine.Once.append (Machine.Once.now ⟨id, place, number, numbered, waits⟩) [move])

/-! ## Where errors come from -/

/-- A request fails by the end of the connection only when the connection has ended, or when the server
    has answered with the code for that. -/
def Blamed (name : String) (moves : List Move) (i : Nat) (result : Except ClientError Json) : Prop :=
  ∀ server, result = .error (.terminated server) → server = name ∧
    ((machine name).Once moves (·.connection.terminated = true) ∨
      ∃ k r e, (machine name).Once moves (·.dialogue.Assigns i k r) ∧ r.outcome = .error e ∧
        e.code = ErrorCode.serverTerminated)

theorem Blamed.append {i : Nat} {result : Except ClientError Json} (h : Blamed name moves i result)
    (more : List Move) : Blamed name (moves ++ more) i result := fun server same =>
  have ⟨named, why⟩ := h server same
  ⟨named, why.imp (·.append more) fun ⟨k, r, e, once, error⟩ => ⟨k, r, e, once.append more, error⟩⟩

/-- A request that gives up, or cannot be written, does not say that the connection has ended. -/
theorem blamed_of_own {i : Nat} {e : ClientError}
    (own : e.GaveUp ∨ e = .notConnected ∨ e = .system .brokenPipe) :
    Blamed name moves i (.error e) := by
  rintro server same
  obtain rfl := Except.error.inj same
  rcases own with gaveUp | same | same
  · cases gaveUp
  · simp at same
  · simp at same

theorem blamed_after (moves : List Move) :
    (∀ i call e, ((machine name).after moves).dialogue.family i = some call → call.error? = some e →
      e.GaveUp ∨ e = .notConnected ∨ e = .system .brokenPipe) ∧
    ∀ i result, ((machine name).after moves).dialogue.outcome? i = some result →
      Blamed name moves i result := by
  refine (machine name).run_induction (fun moves s =>
    (∀ i call e, s.dialogue.family i = some call → call.error? = some e →
      e.GaveUp ∨ e = .notConnected ∨ e = .system .brokenPipe) ∧
    ∀ i result, s.dialogue.outcome? i = some result → Blamed name moves i result) ?_ ?_ moves
  · simp [machine, Dialogue.machine, Dialogue.family, Dialogue.outcome?]
  · rintro moves move ⟨own, blamed⟩
    -- a request ends by a step of its own, so the step says what it ends with
    have change := step_change_dialogue ((machine name).after moves) move
    have named := @name_after name moves
    rw [after_concat]
    refine ⟨fun i call' e here' error => ?_, fun i result ended => ?_⟩
    · rcases change.at here' with ⟨call, here, same⟩ | ⟨-, fresh⟩ | ⟨call, here, step⟩
      · exact own i call e here (by simpa [Call.error?, same] using error)
      · simp [Call.error?, fresh] at error
      · exact (step.error?_cases rfl error).elim (own i call e here) id
    · obtain ⟨call', here', ended⟩ := Option.bind_eq_some_iff.mp ended
      rcases change.at here' with ⟨call, here, same⟩ | ⟨-, fresh⟩ | ⟨call, here, step⟩
      · refine (blamed i result ?_).append [move]
        simpa [Dialogue.outcome?, here, Call.result?, same] using ended
      · simp [Call.result?, fresh] at ended
      · refine Blamed.append ?_ [move]
        rcases step.ended_cases rfl ended with ⟨k, r, tabled, reply, rfl⟩ | ⟨past, rfl⟩ | ⟨e, rfl, why⟩
        · intro server outcome
          -- `terminated` comes of a response with that code, or of the end
          obtain ⟨rfl, e, error, code⟩ := Call.outcome_of_terminated outcome
          refine ⟨named, ?_⟩
          rcases told_after moves i k r ⟨call, here, tabled⟩ reply with once | past
          · exact Or.inr ⟨k, r, e, once, error, code⟩
          · exact Or.inl past
        · intro server outcome
          obtain rfl := ClientError.terminated.inj (Except.error.inj outcome)
          exact ⟨named, Or.inl (Machine.Once.now past)⟩
        · rcases why with old | rfl
          · exact blamed_of_own (own i call e here old)
          · exact blamed_of_own (Or.inl .cancelled)

/-! ## Errors of the server -/

/-- A request that waits when an error of the server is assigned to it fails with this error at its
    next turn, and with no other whatever happens. -/
theorem reported_after {i k deadline : Nat} {call : Call} {r : Response} {e : ResponseError}
    (here : ((machine name).after moves).dialogue.family i = some call)
    (place : call.phase = .waiting k deadline)
    (assigns : ((machine name).after moves).dialogue.Assigns i k r) (error : r.outcome = .error e)
    (foreign : e.Foreign) (more : List Move) :
    let later := (machine name).after (moves ++ [.talk .read rfl] ++ more)
    (later.dialogue.outcome? i = none ∨ later.dialogue.outcome? i = some (.error (.server e))) ∧
      (later.step (.talk (.call i) rfl)).dialogue.outcome? i = some (.error (.server e)) := by
  intro later
  obtain ⟨call', here', fetches⟩ : ∃ call', later.dialogue.family i = some call' ∧
      Dialogue.Fetches later.connection k r call' := by
    refine (machine name).run_induction_from (moves ++ [.talk .read rfl]) (fun _ s =>
      ∃ call', s.dialogue.family i = some call' ∧ Dialogue.Fetches s.connection k r call') ?_
      (fun more move ⟨call', here', fetches⟩ => ?_) more
    · rw [after_concat]
      exact ⟨call, assigns.fetches here place⟩
    · rw [after_concat]
      exact (step_change_dialogue _ move).fetches (correlated_after _) here' fetches
  rw [← Call.outcomeOf_of_foreign (c := { name := later.connection.name }) error foreign]
  refine ⟨?_, fetches.turn here'⟩
  simpa [Dialogue.outcome?, here'] using fetches.result

end Channel

end LanguageClient
