import LanguageClient.Proofs.Session.Attached
import LanguageClient.Proofs.Session.Retrying
/-!
# What a server was offered

A start writes `initialize` on its connection before the session runs, with what the session is set up
to offer (`RanOn.offered`).  By then every connection of an earlier start has been closed: each start
that fails gives up writing on its own (`tended_after`).  So the only connection on which a running
session can write is the one on which it has made its offer (`RanOn.alone`).
-/

namespace LanguageClient

/-! ## The offer -/

/-- A call is the `initialize` of a start that makes an offer by some options. -/
structure Call.Proposes (options : SessionOptions) (call : Call) : Prop where
  method : call.method = "initialize"
  params : ∃ root n, ∀ id, call.params = (options.offer root id n).params

namespace Session

variable {now : Nat} {h h' : Host} {s s' : Session} {t i c : Nat} {task task' : Task} {p p' : StartPhase}
  {server : String} {options : SessionOptions}

/-- An offer by some options was written on a connection. -/
def Offered (options : SessionOptions) (s : Session) (c : Nat) : Prop :=
  ∃ root id n, .request (options.offer root id n) ∈ (s.connection c).sent

theorem Offered.grows (offered : Offered options s c)
    (grows : (s.connection c).sent <+: (s'.connection c).sent) : Offered options s' c := by
  obtain ⟨root, id, n, among⟩ := offered
  exact ⟨root, id, n, grows.subset among⟩

/-- What a start has written by when: its offer, when it waits for the answer or has got it. -/
def Offers (options : SessionOptions) (s : Session) : StartPhase → Prop
  | .initializing c _ call => call.Proposes options ∧
      ∀ id deadline, call.phase = .waiting id deadline → Offered options s c
  | .recording c _ | .configuring c _ => Offered options s c
  | _ => True

theorem Offers.grows (offers : Offers options s p)
    (grows : ∀ c, (s.connection c).sent <+: (s'.connection c).sent) : Offers options s' p := by
  unfold Offers at offers ⊢
  split at offers
  · exact ⟨offers.1, fun id deadline waits => (offers.2 id deadline waits).grows (grows _)⟩
  · exact Offered.grows offers (grows _)
  · exact Offered.grows offers (grows _)
  · trivial

theorem Called.grows {call call' : Call} (step : Called now s c call s' call') (c' : Nat) :
    (s.connection c').sent <+: (s'.connection c').sent := by
  obtain ⟨connection, phase, step⟩ := step
  have kept : (s.setConnection c connection).connections = s.connections.set c connection := rfl
  rcases sent_of_set kept c' with same | ⟨rfl, same⟩
  · exact same ▸ List.prefix_refl _
  · exact same ▸ step.wrote.grows

/-- An attempt begins with an offer that is not written yet. -/
theorem Called.offers_fresh {s₀ s₁ : Session} {attempt : Nat} {call : Call}
    (begun : Called now s₁ c (initializeCall h s₀) s' call) (works : s₀.WorksBy server options) :
    Offers options s' (.initializing c attempt call) := by
  cases begun with
  | step connection phase step =>
    refine ⟨⟨rfl, h.root, s₀.resolutions + 1, fun id => ?_⟩, fun id deadline waits => ?_⟩
    · simp [initializeCall, SessionOptions.offer, works.files, works.initOptions]
    · cases step <;> simp [initializeCall] at *

/-- A call waits only after it has written its request. -/
theorem Called.offers {attempt : Nat} {call call' : Call} (step : Called now s c call s' call')
    (inside : c < s.connections.length) (offers : Offers options s (.initializing c attempt call)) :
    Offers options s' (.initializing c attempt call') := by
  obtain ⟨⟨method, root, n, params⟩, offered⟩ := offers
  cases step with
  | step connection phase step =>
    refine ⟨⟨method, root, n, params⟩, fun id deadline waits => ?_⟩
    obtain rfl : phase = .waiting id deadline := waits
    cases step with
    | written _ _ place wrote =>
      obtain ⟨-, rfl⟩ := Connection.canWrite_of_write wrote
      refine ⟨root, id, n, ?_⟩
      rw [connection_setConnection_self inside]
      simp [Call.request, method, params id, SessionOptions.offer]

/-- An attempt succeeds only with an answer that its call has waited for. -/
theorem Concluded.offers {attempt : Nat} {result : Except ClientError Json}
    (next : Concluded now h s c attempt result h' s' p)
    (offered : ∀ v, result = .ok v → Offered options s c) : Offers options s' p := by
  cases next with
  | succeeded r decoded =>
    cases result with
    | ok v => exact offered v rfl
    | error e => simp [Call.decode, Except.bind] at decoded
  | _ => trivial

theorem StartStep.offers (step : StartStep now h s t p h' s' p') (works : s.WorksBy server options)
    (grounded : s.Grounded) (here : s.tasks[t]? = some (.start p))
    (unanswered : ∀ c attempt call, p = .initializing c attempt call → Initializes call)
    (offers : Offers options s p) : Offers options s' p' := by
  cases step with
  | published c _ call begun => exact begun.offers_fresh works
  | retried c attempt _ _ call place begun => exact begun.offers_fresh works
  | called c attempt call _ call' _ step waits =>
    exact step.offers (grounded.worked t _ c here rfl) offers
  | concluded c attempt call result _ _ _ ended next =>
    exact next.offers fun v same => absurd (same ▸ ended) ((unanswered c attempt call rfl).unanswered v)
  | answered c attempt call s₁ call' result _ _ _ _ step ended next =>
    have grows := step.grows c
    refine next.offers fun v same => ?_
    subst same
    cases step with
    | step connection phase step =>
      cases step with
      | answered id deadline response place reply => exact (offers.2 id deadline place).grows grows
      | _ => simp [Call.result?] at ended
  | recorded c r => exact Offered.grows offers (List.prefix_refl _)
  | connected outcome rest _ next => rcases next with rfl | rfl | ⟨reason, rfl⟩ <;> trivial
  | listed _ _ _ next | announced _ _ _ _ _ _ next => cases next <;> trivial
  | _ => trivial

/-! ## Connections that can be written on -/

/-- A start sees to a connection: it will use it, or has to close it. -/
def Tends (s : Session) (c : Nat) : StartPhase → Prop
  | .publishing c' => c' = c
  | .failing _ .detaching => s.current = some c
  | .failing _ (.closing c' .unwriting) => c' = c
  | p => p.Shakes c

theorem Tends.underWay (tends : s.Tends c p) : p.UnderWay := by
  unfold Tends at tends
  split at tends <;> first
    | trivial
    | exact tends.underWay

/-- Before a session runs, a start sees to every connection that can be written on. -/
def Tended (s : Session) : Prop :=
  (s.state = .running ∨ s.state = .stopping ∨ s.state = .stopped) ∨
    ∀ c < s.connections.length, (s.connection c).canWrite = true →
      ∃ (t : Nat) (p : StartPhase), s.tasks[t]? = some (.start p) ∧ s.Tends c p

/-- A start that fails while it makes the handshake has its connection in use. -/
theorem tends_failStart (used : s.current = some c) (same : s'.current = s.current) (e : ClientError) :
    s'.Tends c (failStart e) :=
  same.trans used

theorem StartStep.tends (step : StartStep now h s t p h' s' p') (used : p.Shakes c → s.current = some c)
    (late : s'.state ≠ .running) (can : (s'.connection c).canWrite = true)
    (inside : c < s.connections.length) (tends : s.Tends c p) : s'.Tends c p' := by
  cases step with
  | published c' _ call begun => exact tends
  | called c' attempt call s₁ call' unanswered step waits => exact tends
  | concluded c' attempt call result _ _ _ ended next =>
    cases next with
    | failed => exact tends_failStart (used tends) rfl _
    | _ => exact tends
  | answered c' attempt call s₁ call' result _ _ _ unanswered step ended next =>
    cases next with
    | failed => exact tends_failStart (used tends) step.current _
    | _ => exact tends
  | retried c' attempt _ _ call place begun =>
    rcases place with ⟨failure, rfl⟩ | ⟨failure, deadline, rfl⟩ <;> exact tends
  | gaveUp c' attempt _ failure place =>
    rcases place with ⟨reply, rfl⟩ | ⟨deadline, reply, rfl⟩ <;>
      exact tends_failStart (used tends) rfl _
  | recorded => exact tends
  -- the session runs now, which is excluded
  | ran => exact absurd rfl late
  | overtaken => exact tends_failStart (used tends) rfl s.invalidState
  | tore e down _ down' step =>
    cases step with
    | unused none =>
      -- there is a connection in use, and the teardown finds it
      have used : s.current = some c := tends
      simp [none] at used
    | detached c' used' =>
      have used : s.current = some c := tends
      exact Option.some.inj (used'.symm.trans used)
    | closed c' q q' connection _ step next =>
      cases q with
      | unwriting =>
        obtain rfl : c' = c := tends
        rw [connection_setConnection_self inside] at can
        -- who takes down closes what it has detached
        rcases Connection.stepClose_unwriting step with ⟨-, rfl, -⟩ | ⟨-, rfl, -⟩ <;>
          simp [Connection.canWrite] at can
      | _ => exact tends.elim
    | _ => exact tends.elim
  | failed _ _ _ step | failedQuietly _ _ _ step | failedLate _ _ _ step =>
    cases step with
    | closed _ _ _ _ _ _ next => simp at next
    | reaped => exact tends.elim
  | unwritten _ _ _ place =>
    rcases place with ⟨kind, rfl⟩ | ⟨params, rest, rfl⟩ <;> exact tends.elim
  | _ => exact tends.elim

theorem Tends.of_current (tends : s.Tends c p) (same : s'.current = s.current) : s'.Tends c p := by
  unfold Tends at tends ⊢
  split at tends
  · exact tends
  · exact same.trans tends
  · exact tends
  · exact tends

/-- Before a session runs and is stopped, nobody but a start takes its connection out of use. -/
theorem TaskStep.current_of_early (step : TaskStep now h s t task h' s' task')
    (here : s.tasks[t]? = some task) (halted : s.Halted)
    (early : s.state ≠ .stopping ∧ s.state ≠ .stopped) (other : ∀ p, p.UnderWay → task ≠ .start p) :
    s'.current = s.current := by
  rcases step.current_cases with ⟨tears, -⟩ | same | ⟨c', place, -⟩
  · rcases tears.cases with halting | ⟨e, down, place⟩
    · exact absurd (halted t task here halting) (by simp [early])
    · exact absurd place (other _ trivial)
  · exact same
  · exact absurd place (other _ trivial)

theorem Moved.tended (moved : Moved now h s h' s') (guarded : s.Guarded) (halted : s.Halted)
    (wired : s.Wired) (tended : s.Tended) : s'.Tended := by
  cases moved with
  | served _ _ serves =>
    have effect := serves.effect
    obtain ⟨c', connection, registry, handlers, passing, diagnostics, -, -, rfl⟩ := serves
    refine tended.imp_right fun tended c inside can => ?_
    exact tended c (by simpa [setConnection] using inside) ((effect c).canWrite can)
  | task t task _ s₁ task' here step =>
    -- once it is late, nobody has to see to the connection
    by_cases late' : s₁.state = .running ∨ s₁.state = .stopping ∨ s₁.state = .stopped
    · exact Or.inl late'
    have early : ¬ (s.state = .running ∨ s.state = .stopping ∨ s.state = .stopped) := by
      intro late
      rcases step.state_cases with same | ⟨next, -⟩
      · exact late' (same ▸ late)
      · exact late' (Or.inr (next.of_late late))
    have alive : s.state ≠ .stopping ∧ s.state ≠ .stopped :=
      ⟨fun past => early (Or.inr (Or.inl past)), fun past => early (Or.inr (Or.inr past))⟩
    refine Or.inr fun c inside' can => ?_
    by_cases inside : c < s.connections.length
    · obtain ⟨i, p, there, tends⟩ := tended.resolve_left early c inside (step.talk.canWrite c can)
      by_cases same : i = t
      · subst same
        obtain rfl := Option.some.inj (there.symm.trans here)
        have after := step.self here
        cases step with
        | start _ _ _ p' step =>
          have used : p.Shakes c → s.current = some c := fun shakes =>
            (wired i p c here shakes).resolve_right (by simp [alive])
          exact ⟨i, p', after,
            step.tends used (fun runs => late' (Or.inl runs)) can inside tends⟩
      · -- the start that sees to the connection is the only one
        have alone : ∀ p', p'.UnderWay → task ≠ .start p' := by
          rintro p' under rfl
          exact same (guarded.unique there tends.underWay here under)
        exact ⟨i, p, step.other same there,
          tends.of_current (step.current_of_early here halted alive alone)⟩
    -- the connection is new: the start that opened it sees to it
    · have place : task = .start .holding := by
        by_contra other
        exact inside (step.talk.length_eq other ▸ inside')
      subst place
      have after := step.self here
      cases step with
      | start _ _ _ p' step =>
        cases step with
        | held =>
          have last : s.connections.length = c := by
            simp only [setTask, List.length_append, List.length_cons, List.length_nil] at inside'
            omega
          exact ⟨t, _, after, last⟩
        | retried _ _ _ _ _ place | gaveUp _ _ _ _ place | unwritten _ _ _ place => simp at place

end Session

namespace Scene

variable {setup : Setup} {moves : List Move} {d d' : Scene} {t c : Nat} {kind : SyncKind}

/-! ## Along a run -/

/-- A start has written its offer when it waits for the answer. -/
theorem offers_after (moves : List Move) : ∀ (t : Nat) (p : StartPhase),
    ((machine setup).after moves).session.tasks[t]? = some (.start p) →
    Session.Offers setup.options ((machine setup).after moves).session p := by
  refine run_changes (fun _ d => ∀ (t : Nat) (p : StartPhase),
    d.session.tasks[t]? = some (.start p) → Session.Offers setup.options d.session p) ?_ ?_ moves
  · simp [machine, Session.ofConfig]
  · rintro moves move d d' rfl rfl change ih t p here'
    have grows := fun c => (change.wrote c).grows
    cases change.came here' with
    | stayed _ here => exact (ih t p here).grows grows
    | called _ absent fresh => cases fresh; trivial
    | born _ absent born => cases born
    | stepped old _ s₁ here step result =>
      generalize ((machine setup).after (moves ++ [move])).host = h' at step
      rw [result]
      cases step with
      | start q _ _ _ step =>
        have offers := step.offers (worksBy_after moves) (grounded_after moves) here
          (fun c attempt call place => initializes_after moves t c attempt call (place ▸ here))
          (ih t q here)
        exact offers.grows fun c => List.prefix_refl _

/-- Before a session runs, a start sees to every connection that can be written on. -/
theorem tended_after (moves : List Move) : ((machine setup).after moves).session.Tended := by
  refine run_changes (fun _ d => d.session.Tended) ?_ ?_ moves
  · exact Or.inr (by simp [machine, Session.ofConfig])
  · rintro moves move d d' rfl rfl change tended
    rcases change.cases with ⟨-, moved⟩ | ⟨aside, -⟩
    · exact moved.tended (guarded_after moves) (halted_after moves) (wired_after moves) tended
    · rw [Session.Tended, aside.rest]
      refine tended.imp_right fun tended c inside can => ?_
      obtain ⟨t, p, here, tends⟩ := tended c inside can
      exact ⟨t, p, aside.kept here, tends⟩

/-- A session runs on a connection on which it has made its offer. -/
theorem RanOn.offered (ran : RanOn setup moves t c kind) :
    ((machine setup).after moves).session.Offered setup.options c := by
  refine ran_induction (fun _ d => d.session.Offered setup.options c) ?_ ?_ ran
  · intro moves move quiet step
    have offered : Session.Offered setup.options ((machine setup).after moves).session c :=
      offers_after moves t _ step.place
    exact offered.grows ((change_after moves move).wrote c).grows
  · rintro moves move d d' rfl rfl - change offered
    exact offered.grows (change.wrote c).grows

/-- After a session has begun to run, its connection is the only one that can be written on. -/
theorem RanOn.alone (ran : RanOn setup moves t c kind) :
    ∀ c' < ((machine setup).after moves).session.connections.length,
      (((machine setup).after moves).session.connection c').canWrite = true → c' = c := by
  refine ran_induction (fun _ d => ∀ c' < d.session.connections.length,
    (d.session.connection c').canWrite = true → c' = c) ?_ ?_ ran
  · intro moves move quiet step c' inside can
    -- a connection that can be written on after the move could be written on before
    have before := (change_after moves move).canWrite c' can
    have inside' : c' < ((machine setup).after moves).session.connections.length := by
      rw [step.result] at inside
      exact inside
    have tended := @tended_after setup moves
    obtain ⟨i, p, there, tends⟩ := tended.resolve_left (by simp [step.starting]) c' inside' before
    obtain rfl := (guarded_after moves).unique there tends.underWay step.place trivial
    obtain rfl := Task.start.inj (Option.some.inj (there.symm.trans step.place))
    exact Eq.symm tends
  · rintro moves move d d' rfl rfl ran change alone c' inside can
    refine alone c' ?_ (change.canWrite c' can)
    rcases change.cases with ⟨-, moved⟩ | ⟨aside, -⟩
    · generalize ((machine setup).after (moves ++ [move])).host = h' at moved
      generalize ((machine setup).after (moves ++ [move])).session = s' at moved inside
      cases moved with
      | served _ _ serves =>
        obtain ⟨_, connection, registry, handlers, passing, diagnostics, -, -, rfl⟩ := serves
        simpa [Session.setConnection] using inside
      | task i task _ s₁ task' here step =>
        -- nobody opens a connection any more
        have other : task ≠ .start .holding := by
          rintro rfl
          exact (ran.on.past i _ here).elim
        exact step.talk.length_eq other ▸ inside
    · rw [aside.rest] at inside
      exact inside

end Scene

end LanguageClient
