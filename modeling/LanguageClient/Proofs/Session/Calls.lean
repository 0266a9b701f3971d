import LanguageClient.Proofs.Connection.Correlated
import LanguageClient.Proofs.Session.Run
/-!
# Calls of tasks

Starts, stops, questions and requests make calls on the connections of a session, one at a time each.
`Talk` says what a step of a task does to the connections and to its call: nothing, or it opens a
connection, tends to one, begins a call or goes on with it.  A task works on connections that exist
(`grounded_after`).
-/

namespace LanguageClient

/-! ## Calls and connections of tasks -/

namespace Task

/-- The call that a task makes, with its connection. -/
def call? : Task → Option (Nat × Call)
  | .start (.initializing c _ call) => some (c, call)
  | .stop (.asking c call) => some (c, call)
  | .query _ (.calling c call) => some (c, call)
  | .request _ _ cancelled (.calling c call) => some (c, { call with cancelled })
  | _ => none

/-- The connection that a task works on. -/
def connection? : Task → Option Nat
  | .start (.publishing c) | .start (.initializing c _ _) | .start (.deciding c _ _ _)
  | .start (.prompting c _ _ _ _) | .start (.recording c _) | .start (.configuring c _)
  | .start (.greeting c _) | .start (.listing c) | .start (.announcing c _ _) => some c
  | .stop (.resetting _ c) => c
  | .stop (.asking c _) | .stop (.exiting c) => some c
  | .event _ (.checking c) | .event _ (.naming c) | .event _ (.matching c _)
  | .event _ (.flushing c _) | .event _ (.writing c _) => some c
  | .delivery _ _ _ (.writing c _) => some c
  | .query _ (.checking c) | .query _ (.naming c) | .query _ (.matching c _) => c
  | .query _ (.flushing c _) | .query _ (.calling c _) => some c
  | .request _ _ _ (.calling c _) => some c
  | _ => none

/-- The notification that a task writes next, with its connection. -/
def speech? : Task → Option (Nat × Notification)
  | .start (.greeting c _) => some (c, { method := "initialized", params := some (.obj []) })
  | .start (.announcing c params _) => some (c, Session.notice "textDocument/didOpen" params)
  | .stop (.exiting c) => some (c, { method := "exit" })
  | .event _ (.flushing c params) | .delivery _ _ _ (.writing c params)
  | .query _ (.flushing c params) => some (c, Session.notice "textDocument/didChange" params)
  | .event _ (.writing c n) => some (c, n)
  | _ => none

/-- A task takes down what the session held, and may take its connection out of use. -/
def TearsDown : Task → Prop
  | .start (.failing ..) | .stop (.detaching _) | .stop (.tearing _) | .watch _ (.tearing _) => True
  | _ => False

/-- A task has no number in use. -/
def Idle (task : Task) : Prop :=
  ∀ c call, task.call? = some (c, call) → call.number? = none

theorem idle_of_call? {task : Task} (none : task.call? = none) : task.Idle := by
  simp [Idle, none]

/-- The call of a task on a connection. -/
def callOn (c : Nat) (task : Task) : Option Call :=
  task.call?.bind fun (c', call) => if c' = c then some call else none

theorem callOn_eq_some_iff {c : Nat} {task : Task} {call : Call} :
    task.callOn c = some call ↔ task.call? = some (c, call) := by
  unfold callOn
  cases task.call? with
  | none => simp
  | some pair =>
    obtain ⟨c', call'⟩ := pair
    by_cases same : c' = c <;> simp [same]

end Task

/-- What happens to a connection without a call: what it may do by itself, or one of some notifications
    is written. -/
inductive Connection.Tame (c : Connection) (may : Notification → Prop) : Connection → Prop where
  | effect {c' : Connection} (effect : c.Effect c') : Tame c may c'
  | noticed {c' : Connection} (n : Notification) (said : may n) (can : c.canWrite = true)
      (rest : Steady { c with sent := c.sent ++ [.notification n] } c') : Tame c may c'

namespace Session

variable {now : Nat} {h h' : Host} {s s' : Session} {t i c : Nat} {task task' : Task}

/-! ## Steps -/

/-- What a step of a task does to the connections and to its call. -/
inductive Talk (now : Nat) (s : Session) (task : Task) (s' : Session) (task' : Task) : Prop where
  | quiet (connections : s'.connections = s.connections)
      (kept : task'.call? = task.call? ∨ task.Idle ∧ task'.Idle)
  | opened (connections : s'.connections = s.connections ++ [s.newConnection])
      (idle : task.Idle ∧ task'.Idle) (place : task = .start .holding)
  | tended (c : Nat) (connection : Connection)
      (tame : (s.connection c).Tame (fun n => task.speech? = some (c, n)) connection)
      (connections : s'.connections = s.connections.set c connection)
      (idle : task.Idle ∧ task'.Idle)
  | began (c : Nat) (connection₁ connection : Connection) (call : Call) (phase : CallPhase)
      (there : task.connection? = some c ∨ s.current = some c) (idle : task.Idle)
      (tame : (s.connection c).Tame (fun n => task.speech? = some (c, n)) connection₁)
      (fresh : call.phase = .entering)
      (step : Call.Step now connection₁ call connection phase)
      (connections : s'.connections = s.connections.set c connection)
      (call' : task'.call? = some (c, { call with phase }))
  | talked (c : Nat) (connection : Connection) (call : Call) (phase : CallPhase)
      (here : task.call? = some (c, call))
      (step : Call.Step now (s.connection c) call connection phase)
      (connections : s'.connections = s.connections.set c connection)
      (call' : task'.call? = some (c, { call with phase }) ∨
        { call with phase }.number? = none ∧ task'.Idle)

/-- A task without a call that changes no connection. -/
theorem Talk.of_silent (connections : s'.connections = s.connections) (mute : task.call? = none)
    (mute' : task'.call? = none) : Talk now s task s' task' :=
  .quiet connections (Or.inl (mute'.trans mute.symm))

/-- A task without a call that tends to a connection. -/
theorem Talk.of_tame {connection : Connection}
    (tame : (s.connection c).Tame (fun n => task.speech? = some (c, n)) connection)
    (connections : s'.connections = s.connections.set c connection) (mute : task.call? = none)
    (mute' : task'.call? = none) : Talk now s task s' task' :=
  .tended c connection tame connections ⟨Task.idle_of_call? mute, Task.idle_of_call? mute'⟩

theorem tame_steady {may : Notification → Prop} {connection : Connection}
    (steady : (s.connection c).Steady connection) : (s.connection c).Tame may connection :=
  .effect (.steady steady)

theorem tame_notice {c : Connection} {may : Notification → Prop} {n : Notification} (said : may n)
    (can : c.canWrite = true) : c.Tame may { c with sent := c.sent ++ [.notification n] } :=
  .noticed n said can (.refl _)

/-- Taking down tends to one connection at most. -/
theorem Talk.of_teardown {p p' : Teardown} {s₁ : Session} (step : TeardownStep s p s₁ p')
    (connections : s'.connections = s₁.connections) (mute : task.call? = none)
    (mute' : task'.call? = none) : Talk now s task s' task' := by
  cases step with
  | detached c used =>
    exact .of_tame (tame_steady (s.connection c).steady_beginClose) connections mute mute'
  | closed c p p' connection t step next =>
    exact .of_tame (.effect (Connection.stepClose_effect step)) connections mute mute'
  | _ => exact .of_silent connections mute mute'

theorem connection_writes (s : Session) (c : Nat) (m : Message) :
    (s.writes c m).connection c =
        { s.connection c with sent := (s.connection c).sent ++ [m] } ∨
      (s.writes c m).connection c = s.connection c := by
  by_cases inside : c < s.connections.length
  · exact Or.inl (by simp [writes, onConnection, setConnection, connection, inside])
  · refine Or.inr ?_
    simp [writes, onConnection, setConnection, connection,
      List.set_eq_of_length_le (Nat.le_of_not_lt inside)]

theorem Announced.connections {docs : List Document} {p : StartPhase}
    (next : Announced s c docs s' p) :
    s'.connections = s.connections ∧ (Task.start p).call? = none := by
  cases next <;> exact ⟨rfl, rfl⟩

theorem Concluded.connections {attempt : Nat} {result : Except ClientError Json} {p : StartPhase}
    (next : Concluded now h s c attempt result h' s' p) :
    s'.connections = s.connections ∧ (Task.start p).call? = none := by
  cases next <;> exact ⟨rfl, rfl⟩

/-- A call that has an outcome uses no number. -/
theorem number?_of_result? {call : Call} {result : Except ClientError Json}
    (ended : call.result? = some result) : call.number? = none := by
  unfold Call.result? at ended
  unfold Call.number?
  split at ended <;> simp_all

theorem StartStep.talk {p p' : StartPhase} (step : StartStep now h s t p h' s' p') :
    Talk now s (.start p) s' (.start p') := by
  cases step with
  | connected outcome rest _ next =>
    rcases next with rfl | rfl | ⟨reason, rfl⟩ <;> exact .of_silent rfl rfl rfl
  | held => exact .opened rfl ⟨Task.idle_of_call? rfl, Task.idle_of_call? rfl⟩ rfl
  | published c _ call begun =>
    obtain ⟨connection, phase, step⟩ := begun
    exact .began c _ connection _ phase (Or.inl rfl) (Task.idle_of_call? rfl)
      (tame_steady (.refl _)) rfl step rfl rfl
  | called c attempt call _ call' unanswered step =>
    obtain ⟨connection, phase, step⟩ := step
    exact .talked c connection call phase rfl step rfl (Or.inl rfl)
  | concluded c attempt call result _ _ _ ended next =>
    -- what follows a reply touches no connection
    obtain ⟨same, mute⟩ := next.connections
    refine .quiet same (Or.inr ⟨?_, Task.idle_of_call? mute⟩)
    intro c' call' here
    obtain ⟨rfl, rfl⟩ : c = c' ∧ call = call' := by simpa [Task.call?] using here
    exact number?_of_result? ended
  | answered c attempt call s₁ call' result _ _ _ unanswered step ended next =>
    obtain ⟨connection, phase, step⟩ := step
    obtain ⟨same, mute⟩ := next.connections
    exact .talked c connection call phase rfl step same
      (Or.inr ⟨number?_of_result? ended, Task.idle_of_call? mute⟩)
  | retried c attempt _ _ call place begun =>
    obtain ⟨connection, phase, step⟩ := begun
    rcases place with ⟨failure, rfl⟩ | ⟨failure, deadline, rfl⟩ <;>
      exact .began c _ connection _ phase (Or.inl rfl) (Task.idle_of_call? rfl)
        (tame_steady (.refl _)) rfl step rfl rfl
  | gaveUp c attempt _ failure place =>
    rcases place with ⟨reply, rfl⟩ | ⟨deadline, reply, rfl⟩ <;> exact .of_silent rfl rfl rfl
  | greeted c kind can on => exact .of_tame (tame_notice rfl can) rfl rfl rfl
  | greetedOnly c can => exact .of_tame (tame_notice rfl can) rfl rfl rfl
  | listed c _ _ next =>
    obtain ⟨same, mute⟩ := next.connections
    exact .of_silent same rfl mute
  | announced c params rest _ _ can next =>
    obtain ⟨same, mute⟩ := next.connections
    exact .of_tame (tame_notice rfl can) same rfl mute
  | unwritten c _ e place cannot =>
    rcases place with ⟨kind, rfl⟩ | ⟨params, rest, rfl⟩ <;> exact .of_silent rfl rfl rfl
  | tore e t _ t' step => exact .of_teardown step rfl rfl rfl
  | failed e t s₁ step | failedQuietly e t s₁ step | failedLate e t s₁ step =>
    exact .of_teardown step rfl rfl rfl
  | _ => exact .of_silent rfl rfl rfl

theorem StopStep.talk {p p' : StopPhase} (step : StopStep now s p s' p') :
    Talk now s (.stop p) s' (.stop p') := by
  cases step with
  | asked c _ call free begun =>
    obtain ⟨connection, phase, step⟩ := begun
    exact .began c _ connection _ phase (Or.inl rfl) (Task.idle_of_call? rfl)
      (tame_steady (.refl _)) rfl step rfl rfl
  | unasked previous c other free =>
    exact .of_tame (tame_steady (s.connection c).steady_beginClose) rfl rfl rfl
  | answered c call past =>
    -- the call has its outcome already, so it does nothing more on the connection
    obtain ⟨result, ended⟩ := Option.isSome_iff_exists.mp past
    refine .quiet rfl (Or.inr ⟨fun c' call' here => ?_, Task.idle_of_call? rfl⟩)
    obtain ⟨rfl, rfl⟩ : c = c' ∧ call = call' := by simpa [Task.call?] using here
    exact number?_of_result? ended
  | called c call _ call' unanswered step =>
    obtain ⟨connection, phase, step⟩ := step
    refine .talked c connection call phase rfl step rfl ?_
    split
    · rename_i past
      obtain ⟨result, ended⟩ := Option.isSome_iff_exists.mp past
      exact Or.inr ⟨number?_of_result? ended, Task.idle_of_call? rfl⟩
    · exact Or.inl rfl
  | exited c =>
    rcases (s.connection c).tryWrite_cases (.notification { method := "exit" }) with
      ⟨can, wrote⟩ | ⟨cannot, failed⟩
    · refine .of_tame (c := c) (.noticed { method := "exit" } rfl can ?_)
        (by rw [onConnection_onConnection]; rfl) rfl rfl
      simp only [wrote]
      exact Connection.steady_beginClose _
    · refine .of_tame (c := c) (tame_steady ?_) (by rw [onConnection_onConnection]; rfl) rfl rfl
      simp only [failed]
      exact Connection.steady_beginClose _
  | closed c p p' connection next step place =>
    rcases place with rfl | rfl <;>
      exact .of_tame (.effect (Connection.stepClose_effect step)) rfl rfl rfl
  | tore t _ t' step | stopped t _ step => exact .of_teardown step rfl rfl rfl
  | _ => exact .of_silent rfl rfl rfl

theorem WatchStep.talk {p p' : WatchPhase} (step : WatchStep h s c p h' s' p') :
    Talk now s (.watch c p) s' (.watch c p') := by
  cases step with
  | tore t _ t' step => exact .of_teardown step rfl rfl rfl
  | _ => exact .of_silent rfl rfl rfl

theorem EventStep.talk {e : DocumentEvent} {p p' : EventPhase} (step : EventStep now h s t e p s' p') :
    Talk now s (.event e p) s' (.event e p') := by
  cases step with
  | ahead e c params _ _ can next =>
    rcases next with ⟨uri, reason, -, rfl, rfl⟩ | ⟨uri, text, -, rfl, rfl⟩ | ⟨rfl, rfl⟩ <;>
      exact .of_tame (tame_notice rfl can) rfl rfl rfl
  | wrote e c n can => exact .of_tame (tame_notice rfl can) rfl rfl rfl
  | _ => exact .of_silent rfl rfl rfl

theorem DeliveryStep.talk {uri : String} {generation deadline : Nat} {p p' : DeliveryPhase}
    (step : DeliveryStep now s t uri generation deadline p s' p') :
    Talk now s (.delivery uri generation deadline p) s' (.delivery uri generation deadline p') := by
  cases step with
  | wrote c params can => exact .of_tame (tame_notice rfl can) rfl rfl rfl
  | _ => exact .of_silent rfl rfl rfl

theorem QueryStep.talk {q : EditQuery} {p p' : QueryPhase} (step : QueryStep now h s t q p s' p') :
    Talk now s (.query q p) s' (.query q p') := by
  cases step with
  | ahead c _ _ _ place next =>
    -- the connection is the one it works on, or the one in use
    have there : (Task.query q p).connection? = some c ∨ s.current = some c := by
      rcases place with ⟨rfl, current⟩ | rfl | ⟨language, rfl⟩
      · exact Or.inr current
      · exact Or.inl rfl
      · exact Or.inl rfl
    have mute : (Task.query q p).call? = none := by
      rcases place with ⟨rfl, -⟩ | rfl | ⟨language, rfl⟩ <;> rfl
    cases next with
    | flushed params sync told => exact .of_silent rfl mute rfl
    | asked _ call nothing begun =>
      obtain ⟨connection, phase, step⟩ := begun
      exact .began c _ connection _ phase there (Task.idle_of_call? mute) (tame_steady (.refl _)) rfl
        step rfl rfl
  | wrote c params _ call can begun =>
    obtain ⟨connection, phase, step⟩ := begun
    refine .began c _ connection _ phase (Or.inl rfl) (Task.idle_of_call? rfl) ?_ rfl step
      (by simp [setConnection, unlockSync, writes, onConnection]) rfl
    change (s.connection c).Tame _ ((s.writes c _).connection c)
    rcases s.connection_writes c (.notification (notice "textDocument/didChange" params)) with
      wrote | same
    · rw [wrote]
      exact tame_notice rfl can
    · rw [same]
      exact tame_steady (.refl _)
  | called c call _ call' unanswered step =>
    obtain ⟨connection, phase, step⟩ := step
    exact .talked c connection call phase rfl step rfl (Or.inl rfl)
  | answered c call result past =>
    refine .quiet rfl (Or.inr ⟨fun c' call' here => ?_, Task.idle_of_call? rfl⟩)
    obtain ⟨rfl, rfl⟩ : c = c' ∧ call = call' := by simpa [Task.call?] using here
    exact number?_of_result? past
  | began _ next =>
    rcases next with rfl | ⟨-, rfl⟩ | ⟨result, rfl⟩ <;> exact .of_silent rfl rfl rfl
  | asked c _ _ place =>
    rcases place with ⟨rfl, rfl⟩ | ⟨rfl, language, rfl⟩ <;> exact .of_silent rfl rfl rfl
  | agreed _ place => rcases place with rfl | ⟨language, rfl⟩ <;> exact .of_silent rfl rfl rfl
  | left _ result place =>
    rcases place with rfl | ⟨-, c, language, rfl⟩ <;> exact .of_silent rfl rfl rfl
  | _ => exact .of_silent rfl rfl rfl

theorem RequestStep.talk {method : String} {params : Option Json} {cancelled : Bool}
    {p p' : RequestPhase} (step : RequestStep now s method params cancelled p s' p') :
    Talk now s (.request method params cancelled p) s' (.request method params cancelled p') := by
  cases step with
  | declined _ place => rcases place with rfl | rfl <;> exact .of_silent rfl rfl rfl
  | asked c _ call current begun =>
    obtain ⟨connection, phase, step⟩ := begun
    exact .began c _ connection _ phase (Or.inr current) (Task.idle_of_call? rfl)
      (tame_steady (.refl _)) rfl step rfl rfl
  | called c call _ call' unanswered step =>
    obtain ⟨connection, phase, step⟩ := step
    exact .talked c connection _ phase rfl step rfl (Or.inl rfl)
  | answered c call result past =>
    refine .quiet rfl (Or.inr ⟨fun c' call' here => ?_, Task.idle_of_call? rfl⟩)
    obtain ⟨rfl, rfl⟩ : c = c' ∧ { call with cancelled } = call' := by simpa [Task.call?] using here
    exact @number?_of_result? { call with cancelled } _ past
  | _ => exact .of_silent rfl rfl rfl

theorem TaskStep.talk (step : TaskStep now h s t task h' s' task') : Talk now s task s' task' := by
  cases step with
  | start p _ _ p' step => exact step.talk
  | stop p _ p' step => exact step.talk
  | watch c p _ _ p' step => exact step.talk
  | event e p _ p' step => exact step.talk
  | delivery uri generation deadline p _ p' step => exact step.talk
  | query q p _ p' step => exact step.talk
  | request method params cancelled p _ p' step => exact step.talk

/-! ## Connections that exist -/

theorem Talk.length_le (talk : Talk now s task s' task') :
    s.connections.length ≤ s'.connections.length := by
  cases talk with
  | quiet connections => simp [connections]
  | opened connections => simp [connections]
  | tended c connection tame connections => simp [connections]
  | began c connection₁ connection call phase there idle tame fresh step connections =>
    simp [connections]
  | talked c connection call phase here step connections => simp [connections]

/-- Only a start whose transport is open makes a connection. -/
theorem Talk.length_eq (talk : Talk now s task s' task') (other : task ≠ .start .holding) :
    s'.connections.length = s.connections.length := by
  cases talk with
  | quiet connections => rw [connections]
  | opened connections idle place => exact absurd place other
  | tended c connection tame connections => simp [connections]
  | began c connection₁ connection call phase there idle tame fresh step connections =>
    simp [connections]
  | talked c connection call phase here step connections => simp [connections]

/-- A task works on the connection that it worked on, on the one in use, or on a new one. -/
theorem TaskStep.connection?_cases (step : TaskStep now h s t task h' s' task')
    (on : task'.connection? = some c) : task.connection? = some c ∨ s.current = some c ∨
      c = s.connections.length ∧ s'.connections.length = c + 1 ∧ task = .start .holding := by
  cases step with
  | start p _ _ p' step =>
    cases step with
    | connected outcome rest _ next =>
      rcases next with rfl | rfl | ⟨reason, rfl⟩ <;> simp [Task.connection?, failStart] at on
    | held =>
      obtain rfl : s.connections.length = c := by simpa [Task.connection?] using on
      exact Or.inr (Or.inr ⟨rfl, by simp, rfl⟩)
    | concluded c attempt call result _ _ _ ended next =>
      cases next <;> first
        | exact Or.inl on
        | simp [Task.connection?, failStart] at on
    | answered c attempt call s₁ call' result _ _ _ unanswered step ended next =>
      cases next <;> first
        | exact Or.inl on
        | simp [Task.connection?, failStart] at on
    | retried c attempt _ _ call place begun =>
      rcases place with ⟨failure, rfl⟩ | ⟨failure, deadline, rfl⟩ <;> exact Or.inl on
    | listed c _ _ next | announced c params rest _ _ can next =>
      cases next <;> first
        | exact Or.inl on
        | simp [Task.connection?] at on
    | published | called | recorded | ran | greeted => exact Or.inl on
    | _ => simp [Task.connection?, failStart] at on
  | stop p _ p' step =>
    cases step with
    | detached previous => exact Or.inr (Or.inl on)
    | called c call _ call' unanswered step =>
      split at on <;> exact Or.inl on
    | closed c p p' connection next step place =>
      rcases place with rfl | rfl <;> simp [Task.connection?] at on
    | asked | answered => exact Or.inl on
    | _ => simp [Task.connection?] at on
  | watch c p _ _ p' step => simp [Task.connection?] at on
  | event e p _ p' step =>
    cases step with
    | opened d c params sync current | sent d c params sync current
    | closed d c params sync current | regarded e c current =>
      exact Or.inr (Or.inl (current.trans on))
    | flushed e c _ params sync place told =>
      rcases place with ⟨rfl, current, -⟩ | rfl | ⟨language, rfl⟩
      · exact Or.inr (Or.inl (current.trans on))
      · exact Or.inl on
      · exact Or.inl on
    | asked e c _ _ place =>
      rcases place with ⟨rfl, rfl⟩ | ⟨rfl, language, rfl⟩ <;> exact Or.inl on
    | warned uri reason c _ place => rcases place with rfl | ⟨language, rfl⟩ <;> exact Or.inl on
    | saved uri text text' c _ place => rcases place with rfl | rfl <;> exact Or.inl on
    | ahead e c params _ _ can next =>
      rcases next with ⟨uri, reason, -, rfl, rfl⟩ | ⟨uri, text, -, rfl, rfl⟩ | ⟨rfl, rfl⟩
      · exact Or.inl on
      · exact Or.inl on
      · simp [Task.connection?] at on
    | _ => simp [Task.connection?] at on
  | delivery uri generation deadline p _ p' step =>
    cases step with
    | found c params current => exact Or.inr (Or.inl (current.trans on))
    | _ => simp [Task.connection?] at on
  | query q p _ p' step =>
    cases step with
    | began _ next =>
      rcases next with rfl | ⟨-, rfl⟩ | ⟨result, rfl⟩ <;> simp [Task.connection?] at on
    | regarded c current => exact Or.inr (Or.inl (current.trans on))
    | asked c _ _ place =>
      rcases place with ⟨rfl, rfl⟩ | ⟨rfl, language, rfl⟩ <;> exact Or.inl on
    | ahead c _ _ _ place next =>
      obtain rfl : c = _ := by cases next <;> simpa [Task.connection?] using on
      rcases place with ⟨rfl, current⟩ | rfl | ⟨language, rfl⟩
      · exact Or.inr (Or.inl current)
      · exact Or.inl rfl
      · exact Or.inl rfl
    | wrote | called => exact Or.inl on
    | _ => simp [Task.connection?] at on
  | request method params cancelled p _ p' step =>
    cases step with
    | asked c _ call current begun => exact Or.inr (Or.inl (current.trans on))
    | called => exact Or.inl on
    | _ => simp [Task.connection?] at on

theorem TeardownStep.current_cases {p p' : Teardown} (step : TeardownStep s p s' p') :
    s'.current = none ∨ s'.current = s.current := by
  cases step with
  | detached => exact Or.inl rfl
  | _ => exact Or.inr rfl

theorem Called.current {call call' : Call} (step : Called now s c call s' call') :
    s'.current = s.current := by
  obtain ⟨connection, rfl⟩ := step.eq_setConnection
  rfl

/-- The connection in use stays, is given up by a task that takes down what the session held, or is one
    that a start has opened. -/
theorem TaskStep.current_cases (step : TaskStep now h s t task h' s' task') :
    (task.TearsDown ∧ s'.current = none) ∨ s'.current = s.current ∨
      ∃ c, task = .start (.publishing c) ∧ s'.current = some c := by
  have torn : ∀ {p p' s₁}, TeardownStep s p s₁ p' → task.TearsDown → s'.current = s₁.current →
      (task.TearsDown ∧ s'.current = none) ∨ s'.current = s.current ∨
        ∃ c, task = .start (.publishing c) ∧ s'.current = some c := fun step tears same =>
    step.current_cases.imp (fun none => ⟨tears, same.trans none⟩) fun kept => Or.inl (same.trans kept)
  cases step with
  | start p _ _ p' step =>
    cases step with
    | published c _ call begun => exact Or.inr (Or.inr ⟨c, rfl, begun.current⟩)
    | called c attempt call _ call' unanswered step => exact Or.inr (Or.inl step.current)
    | concluded c attempt call result _ _ _ ended next => cases next <;> exact Or.inr (Or.inl rfl)
    | answered c attempt call s₁ call' result _ _ _ unanswered step ended next =>
      cases next <;> exact Or.inr (Or.inl step.current)
    | retried c attempt _ _ call place begun => exact Or.inr (Or.inl begun.current)
    | listed c _ _ next | announced c params rest _ _ can next =>
      cases next <;> exact Or.inr (Or.inl rfl)
    | tore e t _ t' step => exact torn step trivial rfl
    | failed e t s₁ step | failedQuietly e t s₁ step | failedLate e t s₁ step =>
      exact torn step trivial rfl
    | _ => exact Or.inr (Or.inl rfl)
  | stop p _ p' step =>
    cases step with
    | detached => exact Or.inl ⟨trivial, rfl⟩
    | asked c _ call free begun => exact Or.inr (Or.inl begun.current)
    | called c call _ call' unanswered step => exact Or.inr (Or.inl step.current)
    | tore t _ t' step | stopped t _ step => exact torn step trivial rfl
    | _ => exact Or.inr (Or.inl rfl)
  | watch c p _ _ p' step =>
    cases step with
    | tore t _ t' step => exact torn step trivial rfl
    | _ => exact Or.inr (Or.inl rfl)
  | event e p _ p' step =>
    cases step with
    | ahead e c params _ _ can next =>
      rcases next with ⟨uri, reason, -, rfl, rfl⟩ | ⟨uri, text, -, rfl, rfl⟩ | ⟨rfl, rfl⟩ <;>
        exact Or.inr (Or.inl rfl)
    | _ => exact Or.inr (Or.inl rfl)
  | delivery uri generation deadline p _ p' step => cases step <;> exact Or.inr (Or.inl rfl)
  | query q p _ p' step =>
    cases step with
    | ahead c _ _ _ place next =>
      cases next with
      | flushed => exact Or.inr (Or.inl rfl)
      | asked _ call nothing begun => exact Or.inr (Or.inl begun.current)
    | wrote c params _ call can begun => exact Or.inr (Or.inl begun.current)
    | called c call _ call' unanswered step => exact Or.inr (Or.inl step.current)
    | _ => exact Or.inr (Or.inl rfl)
  | request method params cancelled p _ p' step =>
    cases step with
    | asked c _ call current begun => exact Or.inr (Or.inl begun.current)
    | called c call _ call' unanswered step => exact Or.inr (Or.inl step.current)
    | _ => exact Or.inr (Or.inl rfl)

/-- The connections that are in use or worked on exist. -/
structure Grounded (s : Session) : Prop where
  current : ∀ c, s.current = some c → c < s.connections.length
  worked : ∀ (t : Nat) (task : Task) (c : Nat), s.tasks[t]? = some task →
    task.connection? = some c → c < s.connections.length

/-- A task makes its call on the connection that it works on. -/
theorem connection?_of_call? {call : Call} (calling : task.call? = some (c, call)) :
    task.connection? = some c := by
  unfold Task.call? at calling
  split at calling <;> simp_all [Task.connection?]

theorem Moved.grounded (moved : Moved now h s h' s') (grounded : Grounded s) : Grounded s' := by
  cases moved with
  | served _ _ serves =>
    obtain ⟨c, connection, registry, handlers, passing, diagnostics, -, -, rfl⟩ := serves
    exact ⟨by simpa [setConnection] using grounded.current,
      by simpa [setConnection] using grounded.worked⟩
  | task t task _ s₁ task' here step =>
    have grown := step.talk.length_le
    constructor
    · intro c current
      rcases step.current_cases with none | same | ⟨c', rfl, some⟩
      · simp [setTask, none] at current
      · exact Nat.lt_of_lt_of_le (grounded.current c (by simpa [setTask, same] using current)) grown
      · obtain rfl : c' = c := by simpa [setTask, some] using current
        exact Nat.lt_of_lt_of_le (grounded.worked t _ c' here rfl) grown
    · intro i x c here' on
      change c < s₁.connections.length
      rcases step.at here here' with ⟨rfl, rfl⟩ | ⟨-, same | ⟨-, born⟩⟩
      · rcases step.connection?_cases on with before | current | ⟨-, new, -⟩
        · exact Nat.lt_of_lt_of_le (grounded.worked i task c here before) grown
        · exact Nat.lt_of_lt_of_le (grounded.current c current) grown
        · omega
      · exact Nat.lt_of_lt_of_le (grounded.worked i x c same on) grown
      · cases born <;> simp [Task.connection?] at on

end Session

namespace Scene

variable {setup : Setup} {moves : List Move} {d d' : Scene}

theorem Fresh.call? {task : Task} (fresh : Fresh task) : task.call? = none := by
  cases fresh <;> rfl

theorem Fresh.connection? {task : Task} (fresh : Fresh task) : task.connection? = none := by
  cases fresh <;> rfl

theorem Change.grounded (change : Change d d') (grounded : d.session.Grounded) :
    d'.session.Grounded := by
  rcases change.cases with ⟨-, moved⟩ | ⟨aside, -⟩
  · exact moved.grounded grounded
  · rw [aside.rest]
    refine ⟨grounded.current, fun t x c here on => ?_⟩
    rcases aside.place t x here with same | ⟨-, fresh⟩ | ⟨method, params, cancelled, p, there, rfl⟩
    · exact grounded.worked t x c same on
    · simp [fresh.connection?] at on
    · refine grounded.worked t _ c there ?_
      cases p <;> exact on

theorem grounded_after (moves : List Move) : ((machine setup).after moves).session.Grounded := by
  refine run_changes (fun _ d => d.session.Grounded) ?_ ?_ moves
  · constructor <;> simp [machine, Session.ofConfig]
  · exact fun _ _ _ _ _ _ change h => change.grounded h

end Scene

end LanguageClient
