import LanguageClient.Proofs.Connection.Correlated
import LanguageClient.Proofs.Machine
/-!
# A connection and all who work on it

`Dialogue` is a connection with the requests that the client makes over it and a clock.  Its moves
are all that can happen: a step of a request, of the read loop, of the job for a request of the
server or of closing; a token fires, time passes, octets come, a handler ends in any way, and the
server stops or starts to take what is written.  It may refuse it, so that writes fail, or leave it
where it is, so that they wait.  A list of moves is a run with its turns in any order.

`step_change` sorts the moves by what they do to the requests.
-/

namespace LanguageClient

/-- A connection, the requests of the client and the time. -/
structure Dialogue where
  connection : Connection
  calls : List Call := []
  now : Nat := 0

namespace Dialogue

/-! ## Moves -/

inductive Move where
  | handleRequests (method : String)
  | handleNotifications (method : String)
  | listen
  /-- The client begins a request; its token may have fired before. -/
  | request (method : String) (params : Option Json) (cancelled : Bool)
  | fire (i : Nat)
  | call (i : Nat)
  /-- The client writes a notification of its own, which is no cancellation. -/
  | notify (n : Notification) (other : n.method ≠ Connection.cancelMethod)
  | read
  /-- The handler of a notification ends, or crashes. -/
  | handled (crashed : Bool)
  | job (j : Nat)
  /-- The handler of a request of the server ends. -/
  | finishJob (j : Nat) (outcome : HandlerOutcome)
  | beginClose
  | close (p : Closing)
  | feed (octets : List UInt8)
  | hangUp
  /-- Writes begin to fail, or to succeed again. -/
  | reach (gone : Bool)
  /-- Writes begin to wait, or go on. -/
  | stall (stalled : Bool)
  | pass (millis : Nat)

/-- Whether a move begins a request. -/
def Move.isRequest : Move → Bool
  | .request .. => true
  | _ => false

def touch (d : Dialogue) (c : Option Connection) : Dialogue :=
  { d with connection := c.getD d.connection }

def step (d : Dialogue) : Move → Dialogue
  | .handleRequests method => d.touch (d.connection.onRequest method).toOption
  | .handleNotifications method => d.touch (d.connection.onNotification method).toOption
  | .listen => d.touch d.connection.listen.toOption
  | .request method params cancelled =>
    { d with calls := d.calls ++ [{ method, params, cancelled }] }
  | .fire i => { d with calls := d.calls.modify i fun call => { call with cancelled := true } }
  | .call i =>
    match (d.calls[i]?).bind (·.step d.now d.connection) with
    | some (connection, call) => { d with connection, calls := d.calls.set i call }
    | none => d
  | .notify n _ =>
    { d with connection :=
        if d.connection.busy then d.connection else d.connection.tryWrite (.notification n) }
  | .read => d.touch d.connection.stepRead
  | .handled crashed =>
    d.touch (some (if crashed then d.connection.crashHandling else d.connection.finishHandling))
  | .job j => d.touch (d.connection.stepJob j)
  | .finishJob j outcome => d.touch (some (d.connection.finishJob j outcome))
  | .beginClose => d.touch (some d.connection.beginClose)
  | .close p => d.touch ((d.connection.stepClose p).map (·.1))
  | .feed octets => d.touch (some (d.connection.feed octets))
  | .hangUp => d.touch (some d.connection.hangUp)
  | .reach gone => { d with connection := { d.connection with peerGone := gone } }
  | .stall stalled => { d with connection := { d.connection with stalled } }
  | .pass millis => { d with now := d.now + millis }

def machine (name : String) : Machine Dialogue Move :=
  { start := { connection := { name } }, step }

def family (d : Dialogue) (i : Nat) : Option Call :=
  d.calls[i]?

/-- What a request has come to. -/
def outcome? (d : Dialogue) (i : Nat) : Option (Except ClientError Json) :=
  (d.family i).bind Call.result?

/-! ## What a move does -/

inductive Change (d : Dialogue) : Dialogue → Prop where
  | stayed : Change d d
  | begun (call : Call) (fresh : call.phase = .entering) :
      Change d { d with calls := d.calls ++ [call] }
  | fired (i : Nat) (call : Call) (here : d.family i = some call) :
      Change d { d with calls := d.calls.set i { call with cancelled := true } }
  | stepped (i : Nat) (call : Call) (c : Connection) (phase : CallPhase)
      (here : d.family i = some call) (step : Call.Step d.now d.connection call c phase) :
      Change d { d with connection := c, calls := d.calls.set i { call with phase } }
  | touched (c : Connection) (effect : d.connection.Effect c) : Change d { d with connection := c }
  | told (n : Notification) (other : n.method ≠ Connection.cancelMethod) :
      Change d { d with
        connection := { d.connection with sent := d.connection.sent ++ [.notification n] } }
  | reached (gone : Bool) : Change d { d with connection := { d.connection with peerGone := gone } }
  | passed (now : Nat) : Change d { d with now }

theorem change_touch (d : Dialogue) {c : Option Connection}
    (effect : ∀ c', c = some c' → d.connection.Effect c') : Change d (d.touch c) := by
  cases c with
  | none => exact .stayed
  | some c => exact .touched c (effect c rfl)

theorem step_change (d : Dialogue) (move : Move) : Change d (d.step move) := by
  -- whatever the server's side does, it leaves the client's requests alone
  have steady : ∀ {c : Option Connection},
      (∀ c', c = some c' → d.connection.Steady c') → Change d (d.touch c) :=
    fun same => d.change_touch fun c' h => .steady (same c' h)
  cases move with
  | handleRequests method =>
    refine steady fun c' h => ?_
    unfold Connection.onRequest at h
    split at h
    · simp [Except.toOption] at h
    · obtain rfl := by simpa [Except.toOption] using h
      exact .of_silent rfl rfl rfl rfl rfl id
  | handleNotifications method =>
    refine steady fun c' h => ?_
    unfold Connection.onNotification at h
    split at h
    · simp [Except.toOption] at h
    · obtain rfl := by simpa [Except.toOption] using h
      exact .of_silent rfl rfl rfl rfl rfl id
  | listen =>
    refine steady fun c' h => ?_
    unfold Connection.listen at h
    split at h
    · simp [Except.toOption] at h
    · obtain rfl := by simpa [Except.toOption] using h
      exact .of_silent rfl rfl rfl rfl rfl id
  | request method params cancelled => exact .begun _ rfl
  | fire i =>
    cases here : d.calls[i]? with
    | none =>
      have same : d.step (.fire i) = d := by
        simp [step, List.modify_eq_self (by simpa using here)]
      rw [same]
      exact .stayed
    | some call =>
      have moved : d.calls.modify i (fun call => { call with cancelled := true }) =
          d.calls.set i { call with cancelled := true } := by
        simp [List.modify_eq_set, here]
      simp only [step, moved]
      exact .fired i call here
  | call i =>
    cases here : d.calls[i]? with
    | none => simpa [step, here] using Change.stayed
    | some call =>
      cases stepped : call.step d.now d.connection with
      | none => simpa [step, here, stepped] using Change.stayed
      | some result =>
        obtain ⟨c, call'⟩ := result
        obtain ⟨phase, rfl, effect⟩ := Call.step_effect stepped
        simpa [step, here, stepped] using Change.stepped i call c phase here effect
  | notify n other =>
    simp only [step]
    split
    · exact .stayed
    · rcases d.connection.tryWrite_cases (.notification n) with ⟨-, wrote⟩ | ⟨-, failed⟩
      · rw [wrote]
        exact .told n other
      · rw [failed]
        exact .stayed
  | read => exact d.change_touch fun c' h => Connection.stepRead_effect h
  | handled crashed =>
    refine steady fun c' h => ?_
    obtain rfl := by simpa using h
    split
    · exact d.connection.steady_crashHandling
    · exact d.connection.steady_finishHandling
  | job j => exact steady fun c' h => Connection.steady_stepJob h
  | finishJob j outcome =>
    refine steady fun c' h => ?_
    obtain rfl := by simpa using h
    exact d.connection.steady_finishJob j outcome
  | beginClose =>
    refine steady fun c' h => ?_
    obtain rfl := by simpa using h
    exact d.connection.steady_beginClose
  | close p =>
    refine d.change_touch fun c' h => ?_
    obtain ⟨⟨c, p'⟩, closed, rfl⟩ := Option.map_eq_some_iff.mp h
    exact Connection.stepClose_effect closed
  | feed octets =>
    refine steady fun c' h => ?_
    obtain rfl := by simpa using h
    exact d.connection.steady_feed octets
  | hangUp =>
    refine steady fun c' h => ?_
    obtain rfl := by simpa using h
    exact d.connection.steady_hangUp
  | reach gone => exact .reached gone
  | stall stalled => exact .touched _ (.steady (.of_silent rfl rfl rfl rfl rfl id))
  | pass millis => exact .passed _

/-! ## Requests by their places -/

theorem family_set {d : Dialogue} {i : Nat} {call call' : Call} (here : d.family i = some call)
    (d' : Dialogue) (set : d'.calls = d.calls.set i call') :
    d'.family = Function.update d.family i (some call') := by
  funext j
  have short : i < d.calls.length := (List.getElem?_eq_some_iff.mp here).1
  by_cases same : i = j
  · subst same; simp [family, set, short]
  · simp [family, set, List.getElem?_set_ne same, Function.update_of_ne (Ne.symm same)]

theorem family_concat {d : Dialogue} (d' : Dialogue) {call : Call} (appended : d'.calls = d.calls ++ [call]) :
    d.family d.calls.length = none ∧
      d'.family = Function.update d.family d.calls.length (some call) := by
  refine ⟨by simp [family], ?_⟩
  funext j
  by_cases same : j = d.calls.length
  · subst same; simp [family, appended]
  · rw [Function.update_of_ne same]
    simp only [family, appended, List.getElem?_append]
    split
    · rfl
    · rename_i long
      have outside : d.calls.length < j := by omega
      simp [List.getElem?_eq_none (Nat.le_of_lt outside), List.getElem?_singleton]
      omega

end Dialogue

end LanguageClient
