import LanguageClient.Proofs.Session.Refusal
import LanguageClient.Proofs.Session.StartOutcome
/-!
# The handshake

`Handshake` is the loop of the handshake by itself: attempts are counted from one, the options are
resolved once for each of them, a reply that can be read ends the loop, and a failure is put to whoever
decides, who may want another attempt.  What is seen of a start, step by step, is what this loop does
(`handshake_after`), as long as nobody stops the session and the connection stays open.

The proof follows the start from phase to phase: `Presents` says at which stage of the loop a start
stands, and a step of the start keeps still or goes on in the loop (`StartStep.handshake`).  A start
that has been told to try again sends the next request within three steps of its own (`sent_after`).
-/

namespace LanguageClient

/-! ## The loop -/

/-- What is seen of a handshake. -/
inductive HandshakeEvent where
  /-- The options were resolved, for the n-th time. -/
  | resolved (n : Nat)
  | sent (request : Request)
  | replied (response : Response)
  | timedOut
  /-- Somebody is asked what to do. -/
  | asked (question : HostEvent)
  | decided (retry : Bool)
  deriving DecidableEq

namespace HandshakeEvent

/-- What the request of an attempt comes to by a reply, or without one. -/
def result? (server : String) : HandshakeEvent → Option (Except ClientError Json)
  | replied r => some (Call.outcomeOf { name := server } r)
  | timedOut => some (.error (Call.timeoutError { name := server } "initialize"))
  | _ => none

def Succeeds (server : String) (reply : HandshakeEvent) (r : InitializeResult) : Prop :=
  ∃ result, reply.result? server = some result ∧
    (Call.decode result : Except ClientError InitializeResult) = .ok r

def Fails (server : String) (reply : HandshakeEvent) (failure : ClientError) : Prop :=
  ∃ result e, reply.result? server = some result ∧
    (Call.decode result : Except ClientError InitializeResult) = .error e ∧ failure = e.intoHandshake

/-- The reason of a server that asks for another try, with a code of its own. -/
def retryReason? : HandshakeEvent → Option String
  | replied r =>
    match r.outcome with
    | .ok _ => none
    | .error e => if e.Foreign ∧ ClientError.asksForRetry e.data = true then some e.message else none
  | _ => none

end HandshakeEvent

namespace SessionOptions

def offer (options : SessionOptions) (root : String) (id n : Nat) : Request :=
  { id := .number (UInt64.ofNat id)
    method := "initialize"
    params := some (toJson (InitializeParams.standard Session.processId root options.files
      (options.initOptions.resolve n))) }

/-- Who is asked about a failed attempt, and what: the policy about every one, and without a policy the
    user about those for which the server asks for another try. -/
def question (options : SessionOptions) (server : String) (k : Nat) (reply : HandshakeEvent)
    (failure : ClientError) : Option HostEvent :=
  if options.policy.isSome then some (.decision server k failure)
  else reply.retryReason?.map askedFor

end SessionOptions

/-- How far a handshake has come: attempts are counted from one. -/
inductive HandshakeStage where
  | idle
  /-- The options of attempt `k` have been resolved, the n-th ones. -/
  | sending (k n : Nat)
  | waiting (k : Nat)
  | deciding (k : Nat) (failure : ClientError)
  | ended (k : Nat) (result : Except ClientError InitializeResult)

/-- The loop of the handshake, with all that is seen of it. -/
inductive Handshake (server : String) (options : SessionOptions) :
    List HandshakeEvent → HandshakeStage → Prop where
  | idle : Handshake server options [] .idle
  | begun (n : Nat) : Handshake server options [.resolved n] (.sending 1 n)
  | sent (root : String) (id : Nat) {es : List HandshakeEvent} {k n : Nat}
      (past : Handshake server options es (.sending k n)) :
      Handshake server options (es ++ [.sent (options.offer root id n)]) (.waiting k)
  | succeeded (reply : HandshakeEvent) (r : InitializeResult) {es : List HandshakeEvent} {k : Nat}
      (past : Handshake server options es (.waiting k)) (succeeds : reply.Succeeds server r) :
      Handshake server options (es ++ [reply]) (.ended k (.ok r))
  | asked (reply : HandshakeEvent) (failure : ClientError) (question : HostEvent)
      {es : List HandshakeEvent} {k : Nat} (past : Handshake server options es (.waiting k))
      (fails : reply.Fails server failure)
      (asks : options.question server k reply failure = some question) :
      Handshake server options (es ++ [reply, .asked question]) (.deciding k failure)
  | failed (reply : HandshakeEvent) (failure : ClientError) {es : List HandshakeEvent} {k : Nat}
      (past : Handshake server options es (.waiting k)) (fails : reply.Fails server failure)
      (silent : options.question server k reply failure = none) :
      Handshake server options (es ++ [reply]) (.ended k (.error failure))
  | retried (n : Nat) {es : List HandshakeEvent} {k : Nat} {failure : ClientError}
      (past : Handshake server options es (.deciding k failure)) :
      Handshake server options (es ++ [.decided true, .resolved n]) (.sending (k + 1) n)
  | gaveUp {es : List HandshakeEvent} {k : Nat} {failure : ClientError}
      (past : Handshake server options es (.deciding k failure)) :
      Handshake server options (es ++ [.decided false]) (.ended k (.error failure))

/-! ## What is seen of a start -/

/-- Somebody is asked something. -/
def HostEvent.isQuestion : HostEvent → Bool
  | .prompt .. | .decision .. => true
  | _ => false

def Message.request? : Message → Option Request
  | .request r => some r
  | _ => none

/-- What the end of a call is due to. -/
def Call.reply (c : Connection) (call : Call) : HandshakeEvent :=
  match call.phase with
  | .waiting k _ => ((c.replies.get? k).map .replied).getD .timedOut
  | _ => .timedOut

namespace StartPhase

def isInitializing : StartPhase → Bool
  | .initializing .. => true
  | _ => false

/-- Somebody was asked, and the answer is waited for or has not been looked at. -/
def isDeciding : StartPhase → Bool
  | .deciding .. | .prompting .. => true
  | _ => false

/-- The reply with which an attempt ends. -/
def replied (s : Session) (p p' : StartPhase) : List HandshakeEvent :=
  match p with
  | .initializing c _ call => if p'.isInitializing then [] else [call.reply (s.connection c)]
  | _ => []

/-- The decision with which a question ends. -/
def decided (p p' : StartPhase) : List HandshakeEvent :=
  if p.isDeciding ∧ ¬ p'.isDeciding then [.decided p.wantsRetry] else []

end StartPhase

namespace Session

/-- What somebody is asked by a change of the host. -/
def questions (h h' : Host) : List HandshakeEvent :=
  ((h'.asked.drop h.asked.length).filter (·.isQuestion)).map .asked

/-- How often the options were resolved by a change of the session. -/
def resolves (s s' : Session) : List HandshakeEvent :=
  (List.range (s'.resolutions - s.resolutions)).map fun i => .resolved (s.resolutions + i + 1)

/-- The requests that were written on the connection of a start. -/
def requests (s s' : Session) (p : StartPhase) : List HandshakeEvent :=
  match (Task.start p).connection? with
  | some c => (((s'.connection c).sent.drop (s.connection c).sent.length).filterMap
      Message.request?).map .sent
  | none => []

/-- What is seen of a step of a start. -/
def handshakes (h : Host) (s : Session) (p : StartPhase) (h' : Host) (s' : Session) (p' : StartPhase) :
    List HandshakeEvent :=
  p.replied s p' ++ questions h h' ++ p.decided p' ++ resolves s s' ++ requests s s' p

@[simp] theorem questions_same (h : Host) : questions h h = [] := by
  simp [questions]

@[simp] theorem questions_askDecision (h : Host) (server : String) (k : Nat) (e : ClientError) :
    questions h (h.askDecision server k e) = [.asked (.decision server k e)] := by
  simp [questions, Host.askDecision, HostEvent.isQuestion]

@[simp] theorem questions_prompt (h : Host) (reason : String) :
    questions h (h.prompt reason [retryAction]).2 = [.asked (askedFor reason)] := by
  simp [questions, asked_prompt, HostEvent.isQuestion, askedFor]

@[simp] theorem questions_showError (h : Host) (text : String) : questions h (h.showError text) = [] := by
  simp [questions, Host.showError, HostEvent.isQuestion]

theorem resolves_of_eq {s s' : Session} (same : s'.resolutions = s.resolutions) : resolves s s' = [] := by
  simp [resolves, same]

theorem resolves_of_succ {s s' : Session} (once : s'.resolutions = s.resolutions + 1) :
    resolves s s' = [.resolved (s.resolutions + 1)] := by
  simp [resolves, once]

theorem requests_of_wrote {s s' : Session} {p : StartPhase} {c : Nat} {messages : List Message}
    (on : (Task.start p).connection? = some c)
    (wrote : (s'.connection c).sent = (s.connection c).sent ++ messages) :
    requests s s' p = (messages.filterMap Message.request?).map .sent := by
  simp [requests, on, wrote]

end Session

/-! ## Failures -/

namespace HandshakeEvent

variable {server : String} {reply : HandshakeEvent} {failure : ClientError}

/-- A failure is one of the handshake, and can be retried exactly when the server asks for it with a code
    of its own. -/
theorem Fails.eq_handshake (fails : reply.Fails server failure) :
    ∃ reason, failure = .handshake reason reply.retryReason?.isSome ∧
      ∀ reason', reply.retryReason? = some reason' → reason' = reason := by
  obtain ⟨result, e, came, decoded, rfl⟩ := fails
  cases reply with
  | replied r =>
    obtain rfl := Option.some.inj came
    cases outcome : r.outcome with
    | ok v =>
      -- the result cannot be read
      simp only [Call.outcomeOf, outcome] at decoded
      have silent : (HandshakeEvent.replied r).retryReason? = none := by
        simp [retryReason?, outcome]
      cases read : (ofJson v : Decoded InitializeResult) with
      | ok r' => simp [Call.decode, Except.bind, Except.mapError, read] at decoded
      | error e' =>
        obtain rfl : ClientError.protocol e'.message = e := by
          simpa [Call.decode, Except.bind, Except.mapError, read] using decoded
        exact ⟨ClientError.message (.protocol e'.message),
          by simp [silent, ClientError.intoHandshake], by simp [silent]⟩
    | error error =>
      by_cases foreign : error.Foreign
      · rw [Call.outcomeOf_of_foreign outcome foreign] at decoded
        obtain rfl : ClientError.server error = e := by simpa [Call.decode, Except.bind] using decoded
        refine ⟨error.message, ?_, ?_⟩
        · by_cases retry : ClientError.asksForRetry error.data = true <;>
            simp [ClientError.intoHandshake, retryReason?, outcome, foreign, retry]
        · intro reason'
          simp [retryReason?, outcome, foreign]
          exact fun _ same => same.symm
      · have silent : (HandshakeEvent.replied r).retryReason? = none := by
          simp [retryReason?, outcome, foreign]
        have own : e = .terminated server ∨ e = .cancelled := by
          simp only [Call.outcomeOf, outcome] at decoded
          split at decoded
          · exact Or.inl (Except.error.inj decoded).symm
          · split at decoded
            · exact Or.inr (Except.error.inj decoded).symm
            · rename_i code code'
              exact absurd ⟨code, code'⟩ foreign
        refine ⟨e.message, ?_, by simp [silent]⟩
        rcases own with rfl | rfl <;> simp [silent, ClientError.intoHandshake]
  | timedOut =>
    obtain rfl := Option.some.inj came
    obtain rfl : Call.timeoutError { name := server } "initialize" = e := by
      simpa [Call.decode, Except.bind] using decoded
    exact ⟨ClientError.message _, rfl, by simp [retryReason?]⟩
  | _ => simp [result?] at came

end HandshakeEvent

/-! ## Starts in the loop -/

/-- The call of an attempt whose request is about to be written. -/
structure Call.Offers (options : SessionOptions) (n : Nat) (call : Call) : Prop where
  method : call.method = "initialize"
  kept : call.cancelled = false
  params : ∃ root, ∀ id, call.params = (options.offer root id n).params
  place : ∃ id, call.phase = .admitted id ∨ call.phase = .registered id

/-- The call of an attempt whose request is written. -/
structure Call.Awaits (server : String) (call : Call) : Prop where
  method : call.method = "initialize"
  kept : call.cancelled = false
  place : ∃ id, (∃ deadline, call.phase = .waiting id deadline) ∨
    call.phase = .abandoning id (timeoutError { name := server } "initialize") ∨
    call.phase = .notifying id (timeoutError { name := server } "initialize")

namespace StartPhase

/-- A start goes on, or has gone on, after an answer. -/
def Accepted (r : InitializeResult) : StartPhase → Prop
  | .recording _ r' => r' = r
  | .configuring _ _ | .greeting _ _ | .listing _ | .announcing _ _ _ | .ended (.ok _) => True
  | _ => False

/-- A start has asked about a failure. -/
def Asks (c k : Nat) (failure : ClientError) (p : StartPhase) : Prop :=
  (∃ reply, p = .deciding c k failure reply) ∨ ∃ deadline reply, p = .prompting c k failure deadline reply

/-- A start fails, or has failed, by an error. -/
def FailedBy (e : ClientError) : StartPhase → Prop
  | .failing e' _ | .reporting e' | .ended (.error e') => e' = e
  | _ => False

/-- At which stage of the loop a start stands.  A start that has ended before its handshake began, or
    fails before, stands at the idle stage. -/
inductive Presents (server : String) (options : SessionOptions) :
    StartPhase → HandshakeStage → Prop where
  | apart (p : StartPhase) (idle : (Task.start p).connection? = none ∨ ∃ c, p = .publishing c) :
      Presents server options p .idle
  | sending (c k n : Nat) (call : Call) (offers : call.Offers options n) :
      Presents server options (.initializing c k call) (.sending k n)
  | waiting (c k : Nat) (call : Call) (awaits : call.Awaits server) :
      Presents server options (.initializing c k call) (.waiting k)
  | deciding (c k : Nat) (failure : ClientError) (p : StartPhase) (asks : p.Asks c k failure) :
      Presents server options p (.deciding k failure)
  | accepted (k : Nat) (r : InitializeResult) (p : StartPhase) (accepted : p.Accepted r) :
      Presents server options p (.ended k (.ok r))
  | failed (k : Nat) (e : ClientError) (p : StartPhase) (failed : p.FailedBy e) :
      Presents server options p (.ended k (.error e))

end StartPhase

theorem StartPhase.Presents.of_initializing {server : String} {options : SessionOptions} {c k : Nat}
    {call : Call} {stage : HandshakeStage}
    (presents : (StartPhase.initializing c k call).Presents server options stage) :
    (∃ n, call.Offers options n ∧ stage = .sending k n) ∨ call.Awaits server ∧ stage = .waiting k := by
  cases presents with
  | apart _ idle => simp [Task.connection?] at idle
  | sending _ _ n _ offers => exact Or.inl ⟨n, offers, rfl⟩
  | waiting _ _ _ awaits => exact Or.inr ⟨awaits, rfl⟩
  | deciding _ _ _ _ asks => rcases asks with ⟨_, same⟩ | ⟨_, _, same⟩ <;> simp at same
  | accepted _ _ _ accepted => exact accepted.elim
  | failed _ _ _ failed => exact failed.elim

namespace Session

variable {now : Nat} {h h' : Host} {s s' : Session} {t c k n : Nat} {p p' : StartPhase}
  {server : String} {options : SessionOptions} {es : List HandshakeEvent} {stage : HandshakeStage}

/-- A session works for a server and with some options, of which only the script of the policy is used
    up. -/
structure WorksBy (s : Session) (server : String) (options : SessionOptions) : Prop where
  name : s.name = server
  named : ∀ connection ∈ s.connections, connection.name = server
  files : s.options.files = options.files
  initOptions : s.options.initOptions = options.initOptions
  policy : s.options.policy.isSome = options.policy.isSome

theorem WorksBy.connection_name (works : s.WorksBy server options) (c : Nat) :
    (s.connection c).name = server := by
  unfold connection
  cases here : s.connections[c]? with
  | none => exact works.name
  | some connection => exact works.named connection (List.mem_of_getElem? here)

/-- The connection that a start works on is there and stays open. -/
structure Sound (s : Session) (c : Nat) : Prop where
  inside : c < s.connections.length
  live : (s.connection c).terminated = false
  can : (s.connection c).canWrite = true

/-- An attempt begins with a number for its request. -/
theorem Called.begins {s₀ : Session} {call : Call} (begun : Called now s c (initializeCall h s₀) s' call)
    (live : (s.connection c).terminated = false) :
    s' = s.setConnection c { s.connection c with nextId := (s.connection c).nextId + 1 } ∧
      call = { initializeCall h s₀ with phase := .admitted (s.connection c).nextId } := by
  cases begun with
  | step connection phase step =>
    cases step with
    | numbered fresh live => exact ⟨rfl, rfl⟩
    | refused e fresh why => simp [live, initializeCall] at why
    | _ => simp [initializeCall, *] at *

theorem offers_initializeCall (works : s.WorksBy server options) (h : Host) (id : Nat) :
    ({ initializeCall h s with phase := .admitted id } : Call).Offers options (s.resolutions + 1) where
  method := rfl
  kept := rfl
  params := ⟨h.root, fun _ => by simp [initializeCall, SessionOptions.offer, works.files, works.initOptions]⟩
  place := ⟨id, Or.inl rfl⟩

theorem Concluded.handshake {result : Except ClientError Json} {reply : HandshakeEvent}
    (next : Concluded now h s c k result h' s' p') (works : s.WorksBy server options)
    (live : (s.connection c).terminated = false) (starting : s.state = .starting)
    (came : reply.result? server = some result) (past : Handshake server options es (.waiting k)) :
    (∃ stage, p'.Presents server options stage ∧
      Handshake server options (es ++ (reply :: questions h h')) stage) ∧
    p'.isInitializing = false ∧ s'.connections = s.connections ∧ s'.resolutions = s.resolutions := by
  -- the question that a failure leads to
  have question : ∀ {failure : ClientError}, reply.Fails server failure →
      options.question server k reply failure =
        if s.options.policy.isSome then some (.decision server k failure)
        else reply.retryReason?.map askedFor := by
    intro failure fails
    rw [SessionOptions.question, works.policy]
  cases next with
  | succeeded r decoded =>
    refine ⟨⟨_, .accepted k r _ rfl, ?_⟩, rfl, rfl, rfl⟩
    simpa using past.succeeded reply r ⟨result, came, decoded⟩
  | failed e decoded why =>
    have fails : reply.Fails server e.intoHandshake := ⟨result, e, came, decoded, rfl⟩
    obtain ⟨nobody, calm⟩ := why.resolve_left (by simp [live, starting])
    refine ⟨⟨_, .failed k _ _ rfl, ?_⟩, rfl, rfl, rfl⟩
    obtain ⟨reason, same, -⟩ := fails.eq_handshake
    have silent : reply.retryReason? = none := by
      cases wish : reply.retryReason? with
      | none => rfl
      | some reason' => exact absurd (by rw [same, wish]; rfl) (calm reason)
    simpa using past.failed reply _ fails (by rw [question fails]; simp [nobody, silent])
  | decided e script decoded live policy =>
    have fails : reply.Fails server e.intoHandshake := ⟨result, e, came, decoded, rfl⟩
    refine ⟨⟨_, .deciding c k _ _ (Or.inl ⟨_, rfl⟩), ?_⟩, rfl, rfl, rfl⟩
    rw [questions_askDecision, works.name]
    exact past.asked reply _ _ fails (by rw [question fails]; simp [policy])
  | prompted e reason decoded live nobody retry =>
    have fails : reply.Fails server e.intoHandshake := ⟨result, e, came, decoded, rfl⟩
    refine ⟨⟨_, .deciding c k _ _ (Or.inr ⟨_, _, rfl⟩), ?_⟩, rfl, rfl, rfl⟩
    rw [questions_prompt]
    refine past.asked reply _ _ fails ?_
    obtain ⟨reason', same, agrees⟩ := fails.eq_handshake
    obtain ⟨rfl, wishes⟩ := ClientError.handshake.inj (retry.symm.trans same)
    obtain ⟨reason₁, wish⟩ := Option.isSome_iff_exists.mp wishes.symm
    obtain rfl := agrees reason₁ wish
    rw [question fails]
    simp [nobody, wish]

/-! ## Steps of a start -/

theorem connection_setConnection_self {connection : Connection} (inside : c < s.connections.length) :
    (s.setConnection c connection).connection c = connection := by
  simp [Session.connection, setConnection, inside]

/-- A request that is about to be written goes on to be, or is written. -/
theorem Called.of_offers {call call' : Call} (step : Called now s c call s' call')
    (offers : call.Offers options n) (sound : s.Sound c) (server : String) :
    call'.result? = none ∧
    ((call'.Offers options n ∧ (s'.connection c).sent = (s.connection c).sent) ∨
      (call'.Awaits server ∧ ∃ root id,
        (s'.connection c).sent = (s.connection c).sent ++ [.request (options.offer root id n)])) := by
  obtain ⟨method, kept, ⟨root, params⟩, id, place⟩ := offers
  cases step with
  | step connection phase step =>
    rw [connection_setConnection_self sound.inside]
    cases step with
    | registered id' place' live =>
      exact ⟨rfl, Or.inl ⟨⟨method, kept, ⟨root, params⟩, id', Or.inr rfl⟩, rfl⟩⟩
    | written id' connection place' wrote =>
      obtain ⟨-, rfl⟩ := Connection.canWrite_of_write wrote
      refine ⟨rfl, Or.inr ⟨⟨method, kept, id', Or.inl ⟨_, rfl⟩⟩, root, id', ?_⟩⟩
      simp [Call.request, method, params id', SessionOptions.offer]
    | unwritten id' e place' failed =>
      exact absurd (Connection.canWrite_eq_false_of_write failed).1 (by simp [sound.can])
    | turnedAway id' place' past => simp [sound.live] at past
    | _ => simp_all

/-- A request that is written waits, or has come to what its reply says. -/
theorem Called.of_awaits {call call' : Call} (step : Called now s c call s' call')
    (awaits : call.Awaits server) (sound : s.Sound c) (named : (s.connection c).name = server) :
    (∃ messages, (s'.connection c).sent = (s.connection c).sent ++ messages ∧
      messages.filterMap Message.request? = []) ∧
    (s'.connection c).terminated = false ∧
    (call'.result? = none → call'.Awaits server) ∧
    ∀ result, call'.result? = some result →
      (call.reply (s.connection c)).result? server = some result := by
  obtain ⟨method, kept, id, place⟩ := awaits
  -- most steps of a call that waits write nothing
  have same : ∀ {connection : Connection}, connection.sent = (s.connection c).sent →
      ∃ messages, connection.sent = (s.connection c).sent ++ messages ∧
        messages.filterMap Message.request? = [] := fun same => ⟨[], by simp [same], rfl⟩
  have late : Call.timeoutError (s.connection c) "initialize" =
      Call.timeoutError { name := server } "initialize" := by
    simp [Call.timeoutError, named]
  cases step with
  | step connection phase step =>
    rw [connection_setConnection_self sound.inside]
    cases step with
    | answered id' deadline response place' reply =>
      refine ⟨same rfl, sound.live, by simp [Call.result?], fun result ended => ?_⟩
      obtain rfl : Call.outcomeOf (s.connection c) response = result := by
        simpa [Call.result?] using ended
      simp [Call.reply, place', reply, HandshakeEvent.result?, Call.outcomeOf,
        Connection.terminatedError, named]
    | gaveUp id' deadline e place' noReply why =>
      refine ⟨same rfl, sound.live, fun _ => ⟨method, kept, id', Or.inr (Or.inl ?_)⟩, by simp [Call.result?]⟩
      rcases why with ⟨-, rfl⟩ | ⟨fired, -⟩
      · rw [method, late]
      · simp [kept] at fired
    | forgotten id' e place' waits =>
      refine ⟨same rfl, sound.live, fun _ => ⟨method, kept, id', Or.inr (Or.inr ?_)⟩, by simp [Call.result?]⟩
      simp_all
    | late id' e place' gone =>
      refine ⟨same rfl, sound.live, by simp [Call.result?], fun result ended => ?_⟩
      simp_all [Call.result?, Call.reply, HandshakeEvent.result?]
    | notified id' e place' =>
      refine ⟨?_, ?_, by simp [Call.result?], fun result ended => ?_⟩
      · rw [Connection.tryWrite_eq]
        -- it is told that the request is not wanted, if that can be written
        by_cases can : (s.connection c).canWrite
        · exact ⟨[Call.cancelMessage id'], by simp [can], rfl⟩
        · exact same (by simp [can])
      · rw [Connection.tryWrite_eq]
        exact sound.live
      · simp_all [Call.result?, Call.reply, HandshakeEvent.result?]
    | _ => simp_all

/-- A start that makes no call writes no request. -/
theorem StartStep.requests_eq_nil (step : StartStep now h s t p h' s' p')
    (mute : (Task.start p).call? = none) : requests s s' p = [] := by
  cases on : (Task.start p).connection? with
  | none => simp [requests, on]
  | some c =>
    obtain ⟨first, answers, wrote, allowed⟩ := (TaskStep.start p _ _ p' step).talk.wrote c
    rw [requests_of_wrote on wrote]
    cases first with
    | none => simp [Message.request?]
    | some m =>
      cases (allowed m rfl).1 with
      | noticed n speech => simp [Message.request?]
      | asked call id calling | withdrew call id e calling => simp [mute] at calling

theorem TeardownStep.resolutions {down down' : Teardown} (step : TeardownStep s down s' down') :
    s'.resolutions = s.resolutions := by
  cases step <;> rfl

theorem Announced.resolutions {docs : List Document} (next : Announced s c docs s' p) :
    s'.resolutions = s.resolutions := by
  cases next <;> rfl

/-- A step of a start that stands before or after its attempts is not seen. -/
theorem StartStep.unseen (step : StartStep now h s t p h' s' p') (calm : p.isInitializing = false)
    (sure : p.isDeciding = false) (other : ∀ c, p ≠ .publishing c) : handshakes h s p h' s' p' = [] := by
  have mute : (Task.start p).call? = none := by
    cases p <;> first | rfl | simp [StartPhase.isInitializing] at calm
  have unreplied : p.replied s p' = [] := by
    cases p <;> first | rfl | simp [StartPhase.isInitializing] at calm
  have same : questions h h' = [] ∧ s'.resolutions = s.resolutions := by
    cases step with
    | published c => exact absurd rfl (other c)
    | called | concluded | answered => simp [StartPhase.isInitializing] at calm
    | retried _ _ _ _ _ place | gaveUp _ _ _ _ place =>
      rcases place with ⟨_, rfl⟩ | ⟨_, _, rfl⟩ <;> simp [StartPhase.isDeciding] at sure
    | listed c _ _ next | announced c params rest _ _ can next =>
      exact ⟨questions_same h, next.resolutions⟩
    | tore e down _ _ step | failed e down _ step | failedQuietly e down _ step
      | failedLate e down _ step => exact ⟨questions_same h, step.resolutions⟩
    | reported e => exact ⟨questions_showError h _, rfl⟩
    | _ => exact ⟨questions_same h, rfl⟩
  simp [handshakes, unreplied, same.1, StartPhase.decided, sure, resolves_of_eq same.2,
    step.requests_eq_nil mute]

theorem WorksBy.called {call call' : Call} (works : s.WorksBy server options)
    (step : Called now s c call s' call') : s'.WorksBy server options := by
  cases step with
  | step connection phase step =>
    refine ⟨works.name, fun other among => ?_, works.files, works.initOptions, works.policy⟩
    rcases List.mem_or_eq_of_mem_set among with among | rfl
    · exact works.named other among
    · rw [step.name, works.connection_name]

theorem Called.resolutions {call call' : Call} (step : Called now s c call s' call') :
    s'.resolutions = s.resolutions := by
  cases step
  rfl

/-- An attempt goes on in the loop. -/
theorem StartStep.handshake_initializing {call : Call}
    (step : StartStep now h s t (.initializing c k call) h' s' p') (works : s.WorksBy server options)
    (sound : s.Sound c) (starting : s.state = .starting)
    (presents : (StartPhase.initializing c k call).Presents server options stage)
    (past : Handshake server options es stage) :
    ∃ stage', p'.Presents server options stage' ∧
      Handshake server options (es ++ handshakes h s (.initializing c k call) h' s' p') stage' := by
  have on : (Task.start (.initializing c k call)).connection? = some c := rfl
  rcases presents.of_initializing with ⟨n, offers, rfl⟩ | ⟨awaits, rfl⟩
  -- the request is on its way: it is written by this step, or it goes on
  · cases step with
    | called _ _ _ s₁ call' unanswered step waits =>
      have seen : handshakes h s (.initializing c k call) h s' (.initializing c k call') =
          requests s s' (.initializing c k call) := by
        simp [handshakes, StartPhase.replied, StartPhase.isInitializing, StartPhase.decided,
          StartPhase.isDeciding, resolves_of_eq step.resolutions]
      rw [seen]
      rcases (step.of_offers offers sound server).2 with ⟨offers', same⟩ | ⟨awaits, root, id, wrote⟩
      · have wrote : (s'.connection c).sent = (s.connection c).sent ++ [] := by simpa using same
        rw [requests_of_wrote on wrote]
        exact ⟨_, .sending c k n call' offers', by simpa using past⟩
      · rw [requests_of_wrote on wrote]
        exact ⟨_, .waiting c k call' awaits, past.sent root id⟩
    | concluded _ _ _ result _ _ _ ended =>
      obtain ⟨id, place | place⟩ := offers.place <;> simp [Call.result?, place] at ended
    | answered _ _ _ s₁ call' result _ _ _ unanswered step ended =>
      simp [(step.of_offers offers sound server).1] at ended
    | retried _ _ _ _ _ place | gaveUp _ _ _ _ place | unwritten _ _ _ place => simp at place
  -- the request is written: it goes on waiting, or its reply has come
  · cases step with
    | called _ _ _ s₁ call' unanswered step waits =>
      obtain ⟨⟨messages, wrote, silent⟩, -, goes, -⟩ :=
        step.of_awaits awaits sound (works.connection_name c)
      refine ⟨_, .waiting c k call' (goes waits), ?_⟩
      simpa [handshakes, StartPhase.replied, StartPhase.isInitializing, StartPhase.decided,
        StartPhase.isDeciding, resolves_of_eq step.resolutions, requests_of_wrote on wrote, silent]
        using past
    | concluded _ _ _ result _ _ _ ended =>
      obtain ⟨id, ⟨deadline, place⟩ | place | place⟩ := awaits.place <;>
        simp [Call.result?, place] at ended
    | answered _ _ _ s₁ call' result _ _ _ unanswered step ended next =>
      obtain ⟨⟨messages, wrote, silent⟩, live, -, came⟩ :=
        step.of_awaits awaits sound (works.connection_name c)
      obtain ⟨⟨stage', presents', past'⟩, left, connections, resolutions⟩ :=
        next.handshake (works.called step) live (step.state.trans starting) (came result ended) past
      refine ⟨stage', presents', ?_⟩
      have same : (s'.connection c).sent = (s.connection c).sent ++ messages := by
        rw [sent_of_connections connections, wrote]
      simpa [handshakes, StartPhase.replied, left, StartPhase.decided, StartPhase.isDeciding,
        resolves_of_eq (resolutions.trans step.resolutions), requests_of_wrote on same, silent]
        using past'
    | retried _ _ _ _ _ place | gaveUp _ _ _ _ place | unwritten _ _ _ place => simp at place

/-- A decision goes on in the loop. -/
theorem StartStep.handshake_deciding {failure : ClientError} (step : StartStep now h s t p h' s' p')
    (asks : p.Asks c k failure) (works : s.WorksBy server options) (sound : s.Sound c)
    (past : Handshake server options es (.deciding k failure)) :
    ∃ stage', p'.Presents server options stage' ∧
      Handshake server options (es ++ handshakes h s p h' s' p') stage' := by
  have sure : p.isDeciding = true := by rcases asks with ⟨_, rfl⟩ | ⟨_, _, rfl⟩ <;> rfl
  have unreplied : ∀ p', p.replied s p' = [] := by
    intro p'
    rcases asks with ⟨_, rfl⟩ | ⟨_, _, rfl⟩ <;> rfl
  -- leaving the decision is what shows that it was taken
  have decided : p'.isDeciding = false → p.decided p' = [.decided p.wantsRetry] :=
    fun left => by simp [StartPhase.decided, sure, left]
  have mute : (Task.start p).call? = none := by rcases asks with ⟨_, rfl⟩ | ⟨_, _, rfl⟩ <;> rfl
  have unwritten := step.requests_eq_nil mute
  cases step with
  | retried c' k' _ s₁ call place begun =>
    obtain ⟨rfl, rfl⟩ : c' = c ∧ k' = k := by
      rcases asks with ⟨_, rfl⟩ | ⟨_, _, rfl⟩ <;> simp_all
    have wants : p.wantsRetry = true := by
      rcases place with ⟨_, rfl⟩ | ⟨_, _, rfl⟩ <;> rfl
    obtain ⟨rfl, rfl⟩ := begun.begins (h := h) (by exact sound.live)
    refine ⟨_, .sending c' (k' + 1) _ _ (offers_initializeCall works h _), ?_⟩
    have once : ∀ connection, resolves s
        ({ s with resolutions := s.resolutions + 1 }.setConnection c' connection) =
          [.resolved (s.resolutions + 1)] := fun connection => resolves_of_succ rfl
    simpa [handshakes, unreplied, decided rfl, wants, once, unwritten]
      using past.retried (s.resolutions + 1)
  | gaveUp c' k' _ failure' place why =>
    obtain ⟨rfl, rfl, rfl⟩ : c' = c ∧ k' = k ∧ failure' = failure := by
      rcases asks with ⟨_, rfl⟩ | ⟨_, _, rfl⟩ <;> simp_all
    -- the connection is open, so that nobody gives up who wants another try
    have unwilling : p.wantsRetry = false := why.resolve_left (by simp [sound.live])
    refine ⟨_, .failed k' failure' _ rfl, ?_⟩
    simpa [handshakes, unreplied, decided rfl, unwilling, resolves_of_eq, unwritten] using past.gaveUp
  | unwritten _ _ _ place =>
    rcases asks with ⟨_, rfl⟩ | ⟨_, _, rfl⟩ <;> simp at place
  | _ => rcases asks with ⟨_, same⟩ | ⟨_, _, same⟩ <;> simp at same

/-- What is seen of a step of a start, the loop of the handshake does. -/
theorem StartStep.handshake (step : StartStep now h s t p h' s' p') (works : s.WorksBy server options)
    (sound : ∀ c, (Task.start p).connection? = some c → s.Sound c)
    (starting : ∀ c, p.Shakes c → s.state = .starting)
    (presents : p.Presents server options stage) (past : Handshake server options es stage) :
    ∃ stage', p'.Presents server options stage' ∧
      Handshake server options (es ++ handshakes h s p h' s' p') stage' := by
  -- outside the loop a step shows nothing
  have still : p'.Presents server options stage → handshakes h s p h' s' p' = [] →
      ∃ stage', p'.Presents server options stage' ∧
        Handshake server options (es ++ handshakes h s p h' s' p') stage' :=
    fun presents quiet => ⟨stage, presents, by rwa [quiet, List.append_nil]⟩
  cases presents with
  | sending c k n call offers =>
    exact step.handshake_initializing works (sound c rfl) (starting c rfl) (.sending c k n call offers) past
  | waiting c k call awaits =>
    exact step.handshake_initializing works (sound c rfl) (starting c rfl) (.waiting c k call awaits) past
  | deciding c k failure _ asks =>
    refine step.handshake_deciding asks works (sound c ?_) past
    rcases asks with ⟨_, rfl⟩ | ⟨_, _, rfl⟩ <;> rfl
  | apart _ idle =>
    by_cases publishes : ∃ c, p = .publishing c
    -- a start that publishes its connection begins the first attempt
    · obtain ⟨c, rfl⟩ := publishes
      have unwritten := step.requests_eq_nil rfl
      cases step with
      | published _ s₁ call begun =>
        obtain ⟨rfl, rfl⟩ := begun.begins (by exact (sound c rfl).live)
        refine ⟨_, .sending c 1 _ _ (offers_initializeCall works h _), ?_⟩
        have once : ∀ connection, resolves s
            ({ { s with current := some c }.spawn (.watch c .waiting) with
              resolutions := s.resolutions + 1 }.setConnection c connection) =
              [.resolved (s.resolutions + 1)] := fun connection => resolves_of_succ rfl
        cases past
        simpa [handshakes, StartPhase.replied, StartPhase.decided, StartPhase.isDeciding, once, unwritten]
          using @Handshake.begun server options (s.resolutions + 1)
      | retried _ _ _ _ _ place | gaveUp _ _ _ _ place | unwritten _ _ _ place => simp at place
    · have alone : (Task.start p).connection? = none := idle.resolve_right publishes
      have apart : p.isInitializing = false ∧ p.isDeciding = false := by
        cases p <;> first | exact ⟨rfl, rfl⟩ | simp [Task.connection?] at alone
      refine still (.apart p' ?_) (step.unseen apart.1 apart.2 fun c same => publishes ⟨c, same⟩)
      cases step with
      | connected outcome rest _ next =>
        rcases next with rfl | rfl | ⟨reason, rfl⟩ <;> exact Or.inl rfl
      | held => exact Or.inr ⟨_, rfl⟩
      | retried _ _ _ _ _ place | gaveUp _ _ _ _ place | unwritten _ _ _ place =>
        rcases place with ⟨_, rfl⟩ | ⟨_, _, rfl⟩ <;> simp [Task.connection?] at alone
      | published | called | concluded | answered | recorded | ran | overtaken | greeted | greetedOnly
        | listed | announced => simp [Task.connection?] at alone
      | _ => exact Or.inl rfl
  | accepted k r _ accepted =>
    -- the handshake is over, and nothing after it shows
    have apart : p.isInitializing = false ∧ p.isDeciding = false := by
      cases p <;> first | exact ⟨rfl, rfl⟩ | exact accepted.elim
    have quiet := step.unseen apart.1 apart.2 fun c same => by subst same; exact accepted
    refine still (.accepted k r p' ?_) quiet
    cases step with
    | overtaken c kind free other => exact absurd (starting c rfl) other
    | unwritten c _ e place cannot =>
      have on : (Task.start p).connection? = some c := by
        rcases place with ⟨_, rfl⟩ | ⟨_, _, rfl⟩ <;> rfl
      simp [(sound c on).can] at cannot
    | listed _ _ _ next | announced _ _ _ _ _ _ next => cases next <;> trivial
    | recorded | ran | greeted | greetedOnly => trivial
    | retried _ _ _ _ _ place | gaveUp _ _ _ _ place =>
      rcases place with ⟨_, rfl⟩ | ⟨_, _, rfl⟩ <;> exact accepted.elim
    | _ => exact accepted.elim
  | failed k e _ failed =>
    have apart : p.isInitializing = false ∧ p.isDeciding = false := by
      cases p <;> first | exact ⟨rfl, rfl⟩ | exact failed.elim
    have quiet := step.unseen apart.1 apart.2 fun c same => by subst same; exact failed
    refine still (.failed k e p' ?_) quiet
    cases step with
    | tore | failed | failedQuietly | failedLate | reported => exact failed
    | retried _ _ _ _ _ place | gaveUp _ _ _ _ place | unwritten _ _ _ place =>
      rcases place with ⟨_, rfl⟩ | ⟨_, _, rfl⟩ <;> exact failed.elim
    | _ => exact failed.elim

/-! ## What a session works by -/

/-- A start uses up the script of the policy, and keeps all other options. -/
theorem StartStep.options_same (step : StartStep now h s t p h' s' p') :
    s'.options.files = s.options.files ∧ s'.options.initOptions = s.options.initOptions ∧
      s'.options.policy.isSome = s.options.policy.isSome := by
  have same : s'.options = s.options → s'.options.files = s.options.files ∧
      s'.options.initOptions = s.options.initOptions ∧
      s'.options.policy.isSome = s.options.policy.isSome := by
    rintro same
    simp [same]
  cases step with
  | published c _ call begun | retried c attempt _ _ call place begun => exact same begun.startKept.options
  | called c attempt call _ call' unanswered step => exact same step.startKept.options
  | concluded c attempt call result _ _ _ ended next =>
    cases next with
    | decided e script decoded live policy => exact ⟨rfl, rfl, by simp [policy]⟩
    | _ => exact same rfl
  | answered c attempt call s₁ call' result _ _ _ unanswered step ended next =>
    cases next with
    | decided e script decoded live policy =>
      rw [← step.startKept.options]
      exact ⟨rfl, rfl, by simp [policy]⟩
    | _ => exact same step.startKept.options
  | listed c _ _ next | announced c params rest _ _ can next => cases next <;> exact same rfl
  | tore e t _ t' step => exact same step.startKept.options
  | failed e t s₁ step | failedQuietly e t s₁ step | failedLate e t s₁ step =>
    exact same step.startKept.options
  | _ => exact same rfl

theorem Talk.named {task task' : Task} (talk : Talk now s task s' task')
    (works : s.WorksBy server options) : ∀ connection ∈ s'.connections, connection.name = server := by
  -- a connection that takes the place of another has its name
  have placed : ∀ {c : Nat} {connection : Connection}, connection.name = (s.connection c).name →
      s'.connections = s.connections.set c connection →
      ∀ connection ∈ s'.connections, connection.name = server := by
    intro c connection same connections other among
    rw [connections] at among
    rcases List.mem_or_eq_of_mem_set among with among | rfl
    · exact works.named other among
    · rw [same, works.connection_name]
  have tamed : ∀ {c connection : Connection} {may : Notification → Prop}, c.Tame may connection →
      connection.name = c.name := by
    intro c connection may tame
    cases tame with
    | effect effect => exact effect.name
    | noticed n said can rest => exact rest.name
  cases talk with
  | quiet connections => exact connections ▸ works.named
  | opened connections =>
    intro connection among
    rw [connections] at among
    rcases List.mem_append.mp among with among | new
    · exact works.named connection among
    · rw [List.mem_singleton.mp new]
      exact works.name
  | tended c connection tame connections => exact placed (tamed tame) connections
  | began c connection₁ connection call phase _ _ tame _ step connections =>
    exact placed (step.name.trans (tamed tame)) connections
  | talked c connection call phase _ step connections => exact placed step.name connections

theorem Moved.worksBy (moved : Moved now h s h' s') (works : s.WorksBy server options) :
    s'.WorksBy server options := by
  cases moved with
  | served _ _ serves =>
    obtain ⟨c, connection, registry, handlers, passing, diagnostics, -, effect, rfl⟩ := serves
    refine ⟨works.name, fun other among => ?_, works.files, works.initOptions, works.policy⟩
    rcases List.mem_or_eq_of_mem_set among with among | rfl
    · exact works.named other among
    · rw [effect.name, works.connection_name]
  | task t task _ s₁ task' here step =>
    have kept : s₁.options.files = s.options.files ∧ s₁.options.initOptions = s.options.initOptions ∧
        s₁.options.policy.isSome = s.options.policy.isSome := by
      by_cases start : ∃ p, task = .start p
      · obtain ⟨p, rfl⟩ := start
        cases step with
        | start _ _ _ p' step => exact step.options_same
      · simp [(step.startKept fun p same => start ⟨p, same⟩).options]
    exact ⟨step.name.trans works.name, step.talk.named works, kept.1.trans works.files,
      kept.2.1.trans works.initOptions, kept.2.2.trans works.policy⟩

end Session

end LanguageClient
