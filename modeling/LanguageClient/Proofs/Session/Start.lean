import LanguageClient.Proofs.Session.Life
import LanguageClient.Proofs.Sync.History
/-!
# Steps of a start

What a start can do in one step: `StartStep` lists it, with all its conditions, and `stepStart_cases`
is the only proof that looks into the steps.

An attempt of the handshake ends as `Concluded` says; `Announced` says where the replay of the open
documents goes on.
-/

namespace LanguageClient

/-- A start has been told to try again. -/
def StartPhase.wantsRetry : StartPhase → Bool
  | .deciding _ _ _ (some .retry) => true
  | .prompting _ _ _ _ (.answered action) => action = some Session.retryAction
  | _ => false

namespace Session

variable {now : Nat} {h h' : Host} {s s' : Session}

/-! ## Attempts -/

def initializeCall (h : Host) (s : Session) : Call :=
  { method := "initialize"
    params := some (toJson (InitializeParams.standard processId h.root s.options.files
      (s.options.initOptions.resolve (s.resolutions + 1)))) }

/-- An attempt begins with the first step of its request. -/
theorem beginAttempt_cases (now : Nat) (h : Host) (s : Session) (c attempt : Nat) :
    ∃ s₁ call, Called now { s with resolutions := s.resolutions + 1 } c (initializeCall h s) s₁ call ∧
      s.beginAttempt now h c attempt = (s₁, .initializing c attempt call) :=
  ⟨_, _, beginCall_cases now { s with resolutions := s.resolutions + 1 } c rfl, rfl⟩

/-- What the end of an attempt leads to. -/
inductive Concluded (now : Nat) (h : Host) (s : Session) (c attempt : Nat)
    (result : Except ClientError Json) : Host → Session → StartPhase → Prop where
  | succeeded (r : InitializeResult)
      (decoded : (Call.decode result : Except ClientError InitializeResult) = .ok r) :
      Concluded now h s c attempt result h s (.recording c r)
  | failed (e : ClientError)
      (decoded : (Call.decode result : Except ClientError InitializeResult) = .error e)
      (why : ((s.connection c).terminated = true ∨ s.state ≠ .starting) ∨
        s.options.policy = none ∧ ∀ reason, e.intoHandshake ≠ .handshake reason true) :
      Concluded now h s c attempt result h s (failStart e.intoHandshake)
  | decided (e : ClientError) (script : List (Option Decision))
      (decoded : (Call.decode result : Except ClientError InitializeResult) = .error e)
      (live : (s.connection c).terminated = false ∧ s.state = .starting)
      (policy : s.options.policy = some script) :
      Concluded now h s c attempt result (h.askDecision s.name attempt e.intoHandshake)
        { s with options := { s.options with policy := some (nextDecision script).2 } }
        (.deciding c attempt e.intoHandshake (nextDecision script).1)
  | prompted (e : ClientError) (reason : String)
      (decoded : (Call.decode result : Except ClientError InitializeResult) = .error e)
      (live : (s.connection c).terminated = false ∧ s.state = .starting)
      (nobody : s.options.policy = none) (retry : e.intoHandshake = .handshake reason true) :
      Concluded now h s c attempt result (h.prompt reason [retryAction]).2 { s with reported := true }
        (.prompting c attempt e.intoHandshake (now + s.options.promptTimeout)
          (h.prompt reason [retryAction]).1)

theorem concludeAttempt_cases {c attempt : Nat} {result : Except ClientError Json} {p : StartPhase}
    (step : concludeAttempt now h s c attempt result = (h', s', p)) :
    Concluded now h s c attempt result h' s' p := by
  unfold concludeAttempt at step
  split at step
  · rename_i r decoded
    obtain ⟨rfl, rfl, rfl⟩ := by simpa using step
    exact .succeeded r decoded
  -- the end of the connection and that of the attempt come before any thought of a retry
  · rename_i e decoded
    simp only at step
    split at step
    · rename_i past
      obtain ⟨rfl, rfl, rfl⟩ := by simpa using step
      exact .failed e decoded (Or.inl past)
    · rename_i live
      have live : (s.connection c).terminated = false ∧ s.state = .starting := by simpa using live
      split at step
      · rename_i script policy
        obtain ⟨rfl, rfl, rfl⟩ := by simpa using step
        exact .decided e script decoded live policy
      · rename_i nobody
        split at step
        · rename_i reason retry
          simp only [Prod.mk.injEq] at step
          obtain ⟨rfl, rfl, rfl⟩ := step
          exact .prompted e reason decoded live nobody retry
        · rename_i other
          obtain ⟨rfl, rfl, rfl⟩ := by simpa using step
          exact .failed e decoded (Or.inr ⟨nobody, other⟩)

/-! ## The replay -/

/-- Where the replay of some documents goes on: with the first one that the server has to be told of,
    or to its end. -/
inductive Announced (s : Session) (c : Nat) (docs : List Document) : Session → StartPhase → Prop where
  | finished (passed : ∀ d ∈ docs, s.sync.open d = (none, s.sync)) :
      Announced s c docs s.unlockSync.unlockStart (.ended (.ok ()))
  | next (skipped : List Document) (d : Document) (rest : List Document) (params : DidOpenParams)
      (sync : DocumentSync) (split : docs = skipped ++ d :: rest)
      (passed : ∀ d ∈ skipped, s.sync.open d = (none, s.sync))
      (told : s.sync.open d = (some params, sync)) :
      Announced s c docs { s with sync } (.announcing c params rest)

theorem announceNext_cases {c : Nat} {docs : List Document} {p : StartPhase}
    (step : s.announceNext c docs = (s', p)) : Announced s c docs s' p := by
  induction docs with
  | nil =>
    obtain ⟨rfl, rfl⟩ := by simpa [announceNext, finishStart] using step
    exact .finished (by simp)
  | cons d docs ih =>
    cases told : s.sync.open d with
    | mk params sync =>
      cases params with
      | some params =>
        obtain ⟨rfl, rfl⟩ := by simpa [announceNext, told] using step
        exact .next [] d docs params sync rfl (by simp) told
      | none =>
        have same : s.sync.open d = (none, s.sync) := DocumentSync.open_of_fst_eq_none (by simp [told])
        obtain rfl : s.sync = sync := by simpa [same] using told
        have passed : ∀ {ds : List Document}, (∀ d' ∈ ds, s.sync.open d' = (none, s.sync)) →
            ∀ d' ∈ d :: ds, s.sync.open d' = (none, s.sync) := by
          intro ds all d' among
          rcases List.mem_cons.mp among with rfl | among
          · exact same
          · exact all d' among
        cases ih (by simpa [announceNext, told] using step) with
        | finished rest => exact .finished (passed rest)
        | next skipped d' rest params sync split skip told' =>
          exact .next (d :: skipped) d' rest params sync (by simp [split]) (passed skip) told'

/-! ## All steps -/

inductive StartStep (now : Nat) (h : Host) (s : Session) (me : Nat) :
    StartPhase → Host → Session → StartPhase → Prop where
  | passed (free : s.starter = none) (running : s.state = .running) :
      StartStep now h s me .locking h s (.ended (.ok ()))
  | refused (free : s.starter = none)
      (late : s.state = .starting ∨ s.state = .stopping ∨ s.state = .stopped) :
      StartStep now h s me .locking h s (.ended (.error s.invalidState))
  | begun (free : s.starter = none) (ready : s.state = .initial ∨ s.state = .startFailed) :
      StartStep now h s me .locking h
        { s with state := .starting, starter := some me, reported := false } .opening
  | connected (outcome : ConnectOutcome) (rest : List ConnectOutcome) (p : StartPhase)
      (next : p = .holding ∨ p = .stuck ∨ ∃ reason, p = failStart (.transport reason)) :
      StartStep now h s me .opening h { s with connector := rest } p
  | held :
      StartStep now h s me .holding h { s with
        hasProcess := s.transport.startsProcess
        connections := s.connections ++ [s.newConnection] } (.publishing s.connections.length)
  | published (c : Nat) (s₁ : Session) (call : Call)
      (begun : Called now { { s with current := some c }.spawn (.watch c .waiting) with
        resolutions := s.resolutions + 1 } c (initializeCall h s) s₁ call) :
      StartStep now h s me (.publishing c) h s₁ (.initializing c 1 call)
  | called (c attempt : Nat) (call : Call) (s₁ : Session) (call' : Call)
      (unanswered : call.result? = none) (step : Called now s c call s₁ call')
      (waits : call'.result? = none) :
      StartStep now h s me (.initializing c attempt call) h s₁ (.initializing c attempt call')
  | concluded (c attempt : Nat) (call : Call) (result : Except ClientError Json) (h₁ : Host)
      (s₁ : Session) (p : StartPhase) (ended : call.result? = some result)
      (next : Concluded now h s c attempt result h₁ s₁ p) :
      StartStep now h s me (.initializing c attempt call) h₁ s₁ p
  | answered (c attempt : Nat) (call : Call) (s₁ : Session) (call' : Call)
      (result : Except ClientError Json) (h₂ : Host) (s₂ : Session) (p : StartPhase)
      (unanswered : call.result? = none) (step : Called now s c call s₁ call')
      (ended : call'.result? = some result) (next : Concluded now h s₁ c attempt result h₂ s₂ p) :
      StartStep now h s me (.initializing c attempt call) h₂ s₂ p
  | retried (c attempt : Nat) (p : StartPhase) (s₁ : Session) (call : Call)
      (place : (∃ failure, p = .deciding c attempt failure (some .retry)) ∨
        ∃ failure deadline, p = .prompting c attempt failure deadline (.answered (some retryAction)))
      (begun : Called now { s with resolutions := s.resolutions + 1 } c (initializeCall h s) s₁ call) :
      StartStep now h s me p h s₁ (.initializing c (attempt + 1) call)
  | gaveUp (c attempt : Nat) (p : StartPhase) (failure : ClientError)
      (place : (∃ reply, p = .deciding c attempt failure reply) ∨
        ∃ deadline reply, p = .prompting c attempt failure deadline reply)
      (why : (s.connection c).terminated = true ∨ p.wantsRetry = false) :
      StartStep now h s me p h s (failStart failure)
  | recorded (c : Nat) (r : InitializeResult) :
      StartStep now h s me (.recording c r) h { s with capabilities := some r.capabilities }
        (.configuring c r.capabilities.syncKind)
  | ran (c : Nat) (kind : SyncKind) (free : s.syncOwner = none) (starting : s.state = .starting) :
      StartStep now h s me (.configuring c kind) h
        ({ s with sync := s.sync.configure kind, state := .running }.lockSync me) (.greeting c kind)
  | overtaken (c : Nat) (kind : SyncKind) (free : s.syncOwner = none) (other : s.state ≠ .starting) :
      StartStep now h s me (.configuring c kind) h { s with sync := s.sync.configure kind }
        (failStart s.invalidState)
  | greeted (c : Nat) (kind : SyncKind) (can : (s.connection c).canWrite = true) (on : kind ≠ .none) :
      StartStep now h s me (.greeting c kind) h
        (s.writes c (.notification { method := "initialized", params := some (.obj []) })) (.listing c)
  | greetedOnly (c : Nat) (can : (s.connection c).canWrite = true) :
      StartStep now h s me (.greeting c .none) h
        (s.writes c (.notification { method := "initialized", params := some (.obj []) })
          |>.unlockSync.unlockStart) (.ended (.ok ()))
  | listed (c : Nat) (s₁ : Session) (p : StartPhase) (next : Announced s c h.documents s₁ p) :
      StartStep now h s me (.listing c) h s₁ p
  | announced (c : Nat) (params : DidOpenParams) (rest : List Document) (s₁ : Session)
      (p : StartPhase) (can : (s.connection c).canWrite = true)
      (next : Announced (s.writes c (.notification (notice "textDocument/didOpen" params))) c rest
        s₁ p) :
      StartStep now h s me (.announcing c params rest) h s₁ p
  | unwritten (c : Nat) (p : StartPhase) (e : ClientError)
      (place : (∃ kind, p = .greeting c kind) ∨ ∃ params rest, p = .announcing c params rest)
      (cannot : (s.connection c).canWrite = false) :
      StartStep now h s me p h s.unlockSync (failStart e)
  | tore (e : ClientError) (t : Teardown) (s₁ : Session) (t' : Teardown)
      (step : TeardownStep s t s₁ t') (more : t' ≠ .ended) :
      StartStep now h s me (.failing e t) h s₁ (.failing e t')
  | failed (e : ClientError) (t : Teardown) (s₁ : Session) (step : TeardownStep s t s₁ .ended)
      (starting : s₁.state = .starting) (unreported : s₁.reported = false) :
      StartStep now h s me (.failing e t) h { s₁ with state := .startFailed, reported := true }
        (.reporting e)
  | failedQuietly (e : ClientError) (t : Teardown) (s₁ : Session) (step : TeardownStep s t s₁ .ended)
      (starting : s₁.state = .starting) (reported : s₁.reported = true) :
      StartStep now h s me (.failing e t) h { s₁ with state := .startFailed }.unlockStart
        (.ended (.error e))
  | failedLate (e : ClientError) (t : Teardown) (s₁ : Session) (step : TeardownStep s t s₁ .ended)
      (other : s₁.state ≠ .starting) :
      StartStep now h s me (.failing e t) h s₁.unlockStart (.ended (.error e))
  | reported (e : ClientError) :
      StartStep now h s me (.reporting e)
        (h.showError (s.name ++ " language server failed to start: " ++ e.message)) s.unlockStart
        (.ended (.error e))

theorem stepStart_cases {me : Nat} {p p' : StartPhase}
    (step : s.stepStart now h me p = some (h', s', p')) : StartStep now h s me p h' s' p' := by
  cases p with
  | locking =>
    simp only [stepStart] at step
    split at step
    · simp at step
    · rename_i taken
      have free : s.starter = none := by simpa using taken
      split at step
      -- the lock is free, so the state alone decides whether there is something to start
      · rename_i running
        obtain ⟨rfl, rfl, rfl⟩ := by simpa using step
        exact .passed free running
      · rename_i ready
        obtain ⟨rfl, rfl, rfl⟩ := by simpa using step
        exact .begun free (Or.inl ready)
      · rename_i ready
        obtain ⟨rfl, rfl, rfl⟩ := by simpa using step
        exact .begun free (Or.inr ready)
      · obtain ⟨rfl, rfl, rfl⟩ := by simpa using step
        refine .refused free ?_
        cases state : s.state <;> simp_all
  | opening =>
    simp only [stepStart] at step
    split at step <;> obtain ⟨rfl, rfl, rfl⟩ := by simpa using step
    · exact .connected .opened _ _ (Or.inl rfl)
    · exact .connected .opened _ _ (Or.inr (Or.inr ⟨_, rfl⟩))
    · exact .connected .opened _ _ (Or.inr (Or.inl rfl))
  | stuck => simp [stepStart] at step
  | holding =>
    obtain ⟨rfl, rfl, rfl⟩ := by simpa [stepStart] using step
    exact .held
  | publishing c =>
    obtain ⟨s₁, call, begun, same⟩ :=
      beginAttempt_cases now h ({ s with current := some c }.spawn (.watch c .waiting)) c 1
    simp only [stepStart, same, Option.some.injEq, Prod.mk.injEq] at step
    obtain ⟨rfl, rfl, rfl⟩ := step
    exact .published c _ call begun
  -- an answer that is there ends the attempt, also when the call could still go on
  | initializing c attempt call =>
    simp only [stepStart] at step
    split at step
    · rename_i result ended
      exact .concluded c attempt call result _ _ _ ended
        (concludeAttempt_cases (Option.some.inj step))
    · rename_i unanswered
      obtain ⟨⟨s₁, call'⟩, stepped, same⟩ := Option.map_eq_some_iff.mp step
      have called := stepCall_cases stepped
      simp only at same
      split at same
      · rename_i result ended
        exact .answered c attempt call s₁ call' result _ _ _ unanswered called ended
          (concludeAttempt_cases same)
      · rename_i waits
        obtain ⟨rfl, rfl, rfl⟩ := by simpa using same
        exact .called c attempt call _ call' unanswered called waits
  | deciding c attempt failure reply =>
    have place : (∃ reply', (StartPhase.deciding c attempt failure reply) = .deciding c attempt failure
        reply') ∨ ∃ deadline reply', StartPhase.deciding c attempt failure reply =
          .prompting c attempt failure deadline reply' := Or.inl ⟨reply, rfl⟩
    simp only [stepStart] at step
    split at step
    · rename_i past
      obtain ⟨rfl, rfl, rfl⟩ := by simpa using step
      exact .gaveUp c attempt _ failure place (Or.inl past)
    · split at step
      · simp at step
      · obtain ⟨rfl, rfl, rfl⟩ := by simpa using step
        exact .gaveUp c attempt _ failure place (Or.inr rfl)
      · obtain ⟨s₁, call, begun, same⟩ := beginAttempt_cases now h s c (attempt + 1)
        simp only [same, Option.some.injEq, Prod.mk.injEq] at step
        obtain ⟨rfl, rfl, rfl⟩ := step
        exact .retried c attempt _ _ call (Or.inl ⟨failure, rfl⟩) begun
  | prompting c attempt failure deadline reply =>
    have place : (∃ reply', (StartPhase.prompting c attempt failure deadline reply) =
        .deciding c attempt failure reply') ∨ ∃ deadline' reply',
          StartPhase.prompting c attempt failure deadline reply =
            .prompting c attempt failure deadline' reply' := Or.inr ⟨deadline, reply, rfl⟩
    simp only [stepStart] at step
    split at step
    · rename_i past
      obtain ⟨rfl, rfl, rfl⟩ := by simpa using step
      exact .gaveUp c attempt _ failure place (Or.inl past)
    · split at step
      · split at step
        · rename_i retry
          obtain ⟨s₁, call, begun, same⟩ := beginAttempt_cases now h s c (attempt + 1)
          simp only [same, Option.some.injEq, Prod.mk.injEq] at step
          obtain ⟨rfl, rfl, rfl⟩ := step
          exact .retried c attempt _ _ call (Or.inr ⟨failure, deadline, by rw [retry]⟩) begun
        · rename_i other
          obtain ⟨rfl, rfl, rfl⟩ := by simpa using step
          exact .gaveUp c attempt _ failure place (Or.inr (by simp [StartPhase.wantsRetry, other]))
      · split at step
        · obtain ⟨rfl, rfl, rfl⟩ := by simpa using step
          exact .gaveUp c attempt _ failure place (Or.inr rfl)
        · simp at step
  | recording c r =>
    obtain ⟨rfl, rfl, rfl⟩ := by simpa [stepStart] using step
    exact .recorded c r
  | configuring c kind =>
    simp only [stepStart] at step
    split at step
    · simp at step
    · rename_i taken
      have free : s.syncOwner = none := by simpa using taken
      split at step
      · rename_i starting
        obtain ⟨rfl, rfl, rfl⟩ := by simpa using step
        exact .ran c kind free starting
      · rename_i other
        obtain ⟨rfl, rfl, rfl⟩ := by simpa using step
        exact .overtaken c kind free other
  | greeting c kind =>
    simp only [stepStart] at step
    split at step
    · simp at step
    -- nothing is announced before `initialized` is out
    rcases s.notify_cases c { method := "initialized", params := some (.obj []) } with
      ⟨can, wrote⟩ | ⟨cannot, e, failed⟩
    · simp only [wrote] at step
      split at step
      · rename_i none
        subst none
        obtain ⟨rfl, rfl, rfl⟩ := by simpa [finishStart] using step
        exact .greetedOnly c can
      · rename_i on
        obtain ⟨rfl, rfl, rfl⟩ := by simpa using step
        exact .greeted c kind can on
    · simp only [failed] at step
      obtain ⟨rfl, rfl, rfl⟩ := by simpa using step
      exact .unwritten c _ e (Or.inl ⟨kind, rfl⟩) cannot
  | listing c =>
    simp only [stepStart, Option.some.injEq] at step
    obtain ⟨rfl, next⟩ := Prod.mk.inj step
    exact .listed c _ _ (announceNext_cases next)
  | announcing c params rest =>
    simp only [stepStart] at step
    split at step
    · simp at step
    rcases s.notify_cases c (notice "textDocument/didOpen" params) with
      ⟨can, wrote⟩ | ⟨cannot, e, failed⟩
    · simp only [wrote, Option.some.injEq] at step
      obtain ⟨rfl, next⟩ := Prod.mk.inj step
      exact .announced c params rest _ _ can (announceNext_cases next)
    · simp only [failed] at step
      obtain ⟨rfl, rfl, rfl⟩ := by simpa using step
      exact .unwritten c _ e (Or.inr ⟨params, rest, rfl⟩) cannot
  | failing e t =>
    simp only [stepStart] at step
    obtain ⟨⟨s₁, t'⟩, stepped, same⟩ := Option.map_eq_some_iff.mp step
    have tore := stepTeardown_cases stepped
    simp only at same
    split at same
    -- with all taken down, the state says whether this start failed or somebody came before it
    · split at same
      · rename_i starting
        split at same
        · rename_i reported
          obtain ⟨rfl, rfl, rfl⟩ := by simpa using same
          exact .failedQuietly e t s₁ tore starting reported
        · rename_i unreported
          obtain ⟨rfl, rfl, rfl⟩ := by simpa using same
          exact .failed e t s₁ tore starting (by simpa using unreported)
      · rename_i other
        obtain ⟨rfl, rfl, rfl⟩ := by simpa using same
        exact .failedLate e t s₁ tore other
    · rename_i more
      obtain ⟨rfl, rfl, rfl⟩ := by simpa using same
      exact .tore e t _ t' tore more
  | reporting e =>
    obtain ⟨rfl, rfl, rfl⟩ := by simpa [stepStart] using step
    exact .reported e
  | ended result => simp [stepStart] at step

end Session

end LanguageClient
