import LanguageClient.Proofs.Session.Handshake
/-!
# Handshakes along a run

Beside all other tasks, and the server and the user, what is seen of one start is what the loop of the
handshake does (`handshake_after`), and a start that was told to try again does so: it sends the next
request with its third step that does not find the writer held up (`sent_after`).  **`handshake_loop`**
says both, and what the start returns.
-/

namespace LanguageClient

/-! ## Counting -/

namespace HandshakeEvent

@[simp] def isResolved : HandshakeEvent → Bool
  | resolved _ => true
  | _ => false

@[simp] def isSent : HandshakeEvent → Bool
  | sent _ => true
  | _ => false

/-- A reply comes from the server, or does not come in time. -/
theorem of_result? {server : String} {reply : HandshakeEvent} {result : Except ClientError Json}
    (came : reply.result? server = some result) : (∃ r, reply = .replied r) ∨ reply = .timedOut := by
  cases reply with
  | replied r => exact Or.inl ⟨r, rfl⟩
  | timedOut => exact Or.inr rfl
  | _ => simp [result?] at came

end HandshakeEvent

namespace HandshakeStage

/-- The number of the attempt that a handshake is at, or has ended with. -/
@[simp] def attempt : HandshakeStage → Nat
  | idle => 0
  | sending k _ | waiting k | deciding k _ | ended k _ => k

/-- How many requests are still to be sent. -/
@[simp] def unsent : HandshakeStage → Nat
  | sending _ _ => 1
  | _ => 0

end HandshakeStage

/-- There are as many resolutions and requests as attempts, and an attempt after the first one for each
    decision to try again. -/
structure Counted (es : List HandshakeEvent) (stage : HandshakeStage) : Prop where
  resolved : es.countP (·.isResolved) = stage.attempt
  sent : es.countP (·.isSent) + stage.unsent = stage.attempt
  retried : stage = .idle ∨ es.count (.decided true) + 1 = stage.attempt

/-- What a stage of the loop adds. -/
theorem Counted.append {es more : List HandshakeEvent} {stage stage' : HandshakeStage}
    (counted : Counted es stage) (begun : stage ≠ .idle)
    (resolved : stage.attempt + more.countP (·.isResolved) = stage'.attempt)
    (sent : stage.attempt + more.countP (·.isSent) + stage'.unsent = stage'.attempt + stage.unsent)
    (retried : stage.attempt + more.count (.decided true) = stage'.attempt) :
    Counted (es ++ more) stage' := by
  have again := counted.retried.resolve_left begun
  refine ⟨?_, ?_, Or.inr ?_⟩
  · rw [List.countP_append, counted.resolved, resolved]
  · have := counted.sent
    rw [List.countP_append]
    omega
  · rw [List.count_append]
    omega

namespace Handshake

variable {server : String} {options : SessionOptions} {es : List HandshakeEvent}
  {stage : HandshakeStage}

theorem counted (loop : Handshake server options es stage) : Counted es stage := by
  induction loop with
  | idle => exact ⟨rfl, rfl, Or.inl rfl⟩
  | begun n => exact ⟨rfl, rfl, Or.inr rfl⟩
  | sent root id past ih => exact ih.append (by simp) (by simp) (by simp) (by simp)
  | succeeded reply r past succeeds ih =>
    obtain ⟨result, came, -⟩ := succeeds
    rcases HandshakeEvent.of_result? came with ⟨r', rfl⟩ | rfl <;>
      exact ih.append (by simp) (by simp) (by simp) (by simp)
  | asked reply failure question past fails asks ih =>
    obtain ⟨result, e, came, -⟩ := fails
    rcases HandshakeEvent.of_result? came with ⟨r', rfl⟩ | rfl <;>
      exact ih.append (by simp) (by simp) (by simp) (by simp)
  | failed reply failure past fails silent ih =>
    obtain ⟨result, e, came, -⟩ := fails
    rcases HandshakeEvent.of_result? came with ⟨r', rfl⟩ | rfl <;>
      exact ih.append (by simp) (by simp) (by simp) (by simp)
  | retried n past ih => exact ih.append (by simp) (by simp) (by simp) (by simp)
  | gaveUp past ih => exact ih.append (by simp) (by simp) (by simp) (by simp)

/-- The failure that is decided about, and the one that a handshake ends with, is one of the handshake. -/
theorem failure_eq (loop : Handshake server options es stage) (failure : ClientError)
    (place : ∃ k, stage = .deciding k failure ∨ stage = .ended k (.error failure)) :
    ∃ reason retry, failure = .handshake reason retry := by
  have failed : ∀ {reply : HandshakeEvent} {failure' : ClientError},
      reply.Fails server failure' → failure' = failure →
      ∃ reason retry, failure = .handshake reason retry := by
    rintro reply _ fails rfl
    obtain ⟨reason, same, -⟩ := fails.eq_handshake
    exact ⟨reason, _, same⟩
  obtain ⟨k, place⟩ := place
  cases loop with
  | asked reply failure' question past fails =>
    obtain ⟨-, same⟩ : _ ∧ failure' = failure := by simpa using place
    exact failed fails same
  | failed reply failure' past fails =>
    obtain ⟨-, same⟩ : _ ∧ failure' = failure := by simpa using place
    exact failed fails same
  | gaveUp past =>
    cases past with
    | asked reply _ question past fails =>
      obtain ⟨-, same⟩ : _ ∧ _ = failure := by simpa using place
      exact failed fails same
  | _ => simp at place

end Handshake

/-! ## Along a run -/

/-- The number of the attempt that a start is at. -/
def StartPhase.attempt : StartPhase → Nat
  | .initializing _ attempt _ | .deciding _ attempt _ _ | .prompting _ attempt _ _ _ => attempt
  | _ => 0

namespace Session

variable {now : Nat} {h h' : Host} {s s' : Session} {t c k n : Nat} {p p' : StartPhase}

/-- Nothing is seen of a start that waits. -/
theorem handshakes_self (h : Host) (s : Session) (p : StartPhase) : handshakes h s p h s p = [] := by
  have unwritten : requests s s p = [] := by
    cases on : (Task.start p).connection? with
    | none => simp [requests, on]
    | some c => simp [requests, on]
  cases p <;> simp [handshakes, StartPhase.replied, StartPhase.isInitializing, StartPhase.decided,
    StartPhase.isDeciding, resolves, unwritten]

theorem Concluded.attempt_le {attempt : Nat} {result : Except ClientError Json}
    (next : Concluded now h s c attempt result h' s' p) : p.attempt ≤ attempt := by
  cases next <;> simp [StartPhase.attempt, failStart]

theorem Announced.attempt_eq {docs : List Document} (next : Announced s c docs s' p) :
    p.attempt = 0 := by
  cases next <;> rfl

/-- A step begins one attempt at most. -/
theorem StartStep.attempt_le (step : StartStep now h s t p h' s' p') : p'.attempt ≤ p.attempt + 1 := by
  cases step with
  | published => exact Nat.le_refl 1
  | called => exact Nat.le_succ _
  | concluded c k call result _ _ _ ended next => exact Nat.le_succ_of_le next.attempt_le
  | answered c k call s₁ call' result _ _ _ unanswered step ended next =>
    exact Nat.le_succ_of_le next.attempt_le
  | retried c k _ _ call place begun =>
    rcases place with ⟨_, rfl⟩ | ⟨_, _, rfl⟩ <;> exact Nat.le_refl (k + 1)
  | connected outcome rest _ next =>
    rcases next with rfl | rfl | ⟨_, rfl⟩ <;> exact Nat.zero_le _
  | listed c _ _ next => exact next.attempt_eq ▸ Nat.zero_le _
  | announced c params rest _ _ can next => exact next.attempt_eq ▸ Nat.zero_le _
  | _ => exact Nat.zero_le _

end Session

namespace Scene

variable {setup : Setup} {moves : List Move} {d : Scene} {t c k n : Nat} {p p' : StartPhase}

/-- What is seen of a start by a move. -/
def handshakes (t : Nat) (d : Scene) : Move → List HandshakeEvent
  | .act (.task i) =>
    if i = t then
      match d.session.tasks[t]?, (d.step (.act (.task t))).session.tasks[t]? with
      | some (.start p), some (.start p') =>
        Session.handshakes d.host d.session p (d.step (.act (.task t))).host
          (d.step (.act (.task t))).session p'
      | _, _ => []
    else []
  | _ => []

/-- What is seen of a start along a run. -/
def handshakeOf (setup : Setup) (t : Nat) (moves : List Move) : List HandshakeEvent :=
  (machine setup).recorded (handshakes t) moves

/-- The connection that a start works on, if any, has not ended and can be written on. -/
def Open (t : Nat) (d : Scene) : Prop :=
  ∀ c ∈ d.session.tasks[t]?.bind Task.connection?,
    (d.session.connection c).terminated = false ∧ (d.session.connection c).canWrite = true

instance (t : Nat) (d : Scene) : Decidable (d.Open t) :=
  inferInstanceAs (Decidable (∀ c ∈ d.session.tasks[t]?.bind Task.connection?, _ ∧ _))

/-- A start takes a step, which is seen, or stays where it is. -/
theorem start_cases (covered : d.session.sync.Covered) (guarded : d.session.Guarded)
    (here : d.session.tasks[t]? = some (.start p)) (move : Move) :
    ((d.step move).session.tasks[t]? = some (.start p) ∧ handshakes t d move = []) ∨
    ∃ h s₁ p', move = .act (.task t) ∧
      Session.StartStep d.now d.host d.session t p h s₁ p' ∧
      (d.step move).session.tasks[t]? = some (.start p') ∧
      handshakes t d move = Session.handshakes d.host d.session p h s₁ p' := by
  -- only its own turn moves a start
  by_cases own : move = .act (.task t)
  · subst own
    rcases step_task covered t with same | ⟨task, h, s₁, task', there, step, same⟩
    · refine Or.inl ⟨by rw [same]; exact here, ?_⟩
      simp [handshakes, same, here, Session.handshakes_self]
    · obtain rfl := Option.some.inj (there.symm.trans here)
      cases step with
      | start _ _ _ p' step =>
        have after := (shows_step here step same).1
        refine Or.inr ⟨h, s₁, p', rfl, step, after, ?_⟩
        simp only [handshakes, if_true, here, after]
        rw [same]
        rfl
  · refine Or.inl ⟨?_, ?_⟩
    · rcases step_start covered guarded here move with ⟨mine, -⟩ | ⟨after, -⟩
      · exact absurd mine own
      · exact after
    · unfold handshakes
      split
      · rename_i i
        exact if_neg fun same => own (by rw [same])
      · rfl

theorem worksBy_after (moves : List Move) :
    ((machine setup).after moves).session.WorksBy setup.server.name setup.options := by
  refine run_changes (fun _ d => d.session.WorksBy setup.server.name setup.options) ?_ ?_ moves
  · exact ⟨rfl, by simp [machine, Session.ofConfig], rfl, rfl, rfl⟩
  · rintro moves move d d' rfl rfl change works
    rcases change.cases with ⟨-, moved⟩ | ⟨aside, -⟩
    · exact moved.worksBy works
    · rw [aside.rest]
      exact ⟨works.name, works.named, works.files, works.initOptions, works.policy⟩

/-- What a start works on is there, as long as it is open, and the session is starting. -/
theorem sound_after (open_ : ((machine setup).after moves).Open t)
    (here : ((machine setup).after moves).session.tasks[t]? = some (.start p)) (c : Nat)
    (on : (Task.start p).connection? = some c) : ((machine setup).after moves).session.Sound c := by
  obtain ⟨live, can⟩ := open_ c (by simp [here, on])
  exact ⟨(grounded_after moves).worked t _ c here on, live, can⟩

theorem starting_after (unstopped : Move.stop ∉ moves)
    (here : ((machine setup).after moves).session.tasks[t]? = some (.start p)) (c : Nat)
    (shakes : p.Shakes c) : ((machine setup).after moves).session.state = .starting := by
  have stands := stands_after moves unstopped t p here shakes.underWay
  cases p <;> first | exact stands | exact shakes.elim

/-- Beside all others, a start makes the handshake as the loop does. -/
theorem handshake_after (moves : List Move) (unstopped : Move.stop ∉ moves)
    (stays : (machine setup).Always moves (·.Open t)) :
    (((machine setup).after moves).session.tasks[t]? = none → handshakeOf setup t moves = []) ∧
    ∀ p, ((machine setup).after moves).session.tasks[t]? = some (.start p) →
      ∃ stage, p.Presents setup.server.name setup.options stage ∧
        Handshake setup.server.name setup.options (handshakeOf setup t moves) stage := by
  revert unstopped stays
  refine (machine setup).run_induction (fun moves d => Move.stop ∉ moves →
    (machine setup).Always moves (·.Open t) →
    (d.session.tasks[t]? = none → handshakeOf setup t moves = []) ∧
    ∀ p, d.session.tasks[t]? = some (.start p) →
      ∃ stage, p.Presents setup.server.name setup.options stage ∧
        Handshake setup.server.name setup.options (handshakeOf setup t moves) stage) ?_ ?_ moves
  · intro _ _
    exact ⟨fun _ => rfl, by simp [machine, Session.ofConfig]⟩
  · intro moves move ih unstopped stays
    have earlier : Move.stop ∉ moves := fun stop => unstopped (List.mem_append_left _ stop)
    have opened := (Machine.always_concat.mp stays).1
    obtain ⟨before, loop⟩ := ih earlier opened
    have change := @change_after setup moves move
    have recorded : handshakeOf setup t (moves ++ [move]) =
        handshakeOf setup t moves ++ handshakes t ((machine setup).after moves) move :=
      Machine.recorded_concat ..
    -- before there is a task, nothing is seen of it
    have unseen : ((machine setup).after moves).session.tasks[t]? = none →
        handshakeOf setup t (moves ++ [move]) = [] := by
      intro none
      rw [recorded, before none, List.nil_append]
      unfold handshakes
      split
      · simp [none]
      · rfl
    refine ⟨fun none' => unseen (change.none_before none'), fun p' here' => ?_⟩
    rcases change.start_before here' with ⟨p, here⟩ | ⟨none, rfl⟩
    · obtain ⟨stage, presents, past⟩ := loop p here
      rw [recorded]
      rw [Machine.after_concat] at here'
      rcases start_cases (covered_after moves) (guarded_after moves) here move with
        ⟨same, quiet⟩ | ⟨h, s₁, q, -, step, after, seen⟩
      · obtain rfl := Task.start.inj (Option.some.inj (same.symm.trans here'))
        exact ⟨stage, presents, by rwa [quiet, List.append_nil]⟩
      · obtain rfl := Task.start.inj (Option.some.inj (after.symm.trans here'))
        rw [seen]
        exact step.handshake (worksBy_after moves) (sound_after opened.now here)
          (starting_after earlier here) presents past
    · exact ⟨_, .apart _ (Or.inl rfl), by rw [unseen none]; exact .idle⟩

/-! ## Another try -/

/-- A start that was told to try again stands before, or at, the moment at which the request of its next
    attempt is sent, by the steps that it has still to take. -/
inductive Resends (k : Nat) : Nat → StartPhase → Prop where
  | told (c : Nat) (failure : ClientError) (p : StartPhase) (asks : p.Asks c k failure)
      (wants : p.wantsRetry = true) : Resends k 3 p
  | numbered (c id : Nat) (call : Call) (place : call.phase = .admitted id) :
      Resends k 2 (.initializing c (k + 1) call)
  | registered (c id : Nat) (call : Call) (place : call.phase = .registered id) :
      Resends k 1 (.initializing c (k + 1) call)
  | sent (c id deadline : Nat) (call : Call) (place : call.phase = .waiting id deadline) :
      Resends k 0 (.initializing c (k + 1) call)

theorem exists_call_step {call : Call} {connection : Connection}
    (place : ∃ id, call.phase = .admitted id ∨ call.phase = .registered id)
    (free : connection.busy = false) (now : Nat) : ∃ result, call.step now connection = some result := by
  obtain ⟨id, place | place⟩ := place <;>
    simp only [Call.step, place, free, Bool.false_eq_true, if_false] <;> split <;> exact ⟨_, rfl⟩

/-- It need not wait for anybody but the writer. -/
theorem Resends.exists_step {s : Session} (resends : Resends k (n + 1) p)
    (free : ∀ c, (Task.start p).connection? = some c → s.busy c = false) (now : Nat) (h : Host)
    (t : Nat) : ∃ h' s' p', s.stepStart now h t p = some (h', s', p') := by
  -- a call that is not written yet goes on as soon as the writer is free
  have goes : ∀ {c : Nat} {call : Call}, p = .initializing c (k + 1) call →
      (∃ id, call.phase = .admitted id ∨ call.phase = .registered id) →
      ∃ h' s' p', s.stepStart now h t (.initializing c (k + 1) call) = some (h', s', p') := by
    rintro c call rfl place
    obtain ⟨⟨connection, call'⟩, stepped⟩ := exists_call_step place (free c rfl) now
    have unanswered : call.result? = none := by
      obtain ⟨id, place | place⟩ := place <;> simp [Call.result?, place]
    simp only [Session.stepStart, unanswered, Session.stepCall, stepped, Option.map_some]
    exact ⟨_, _, _, rfl⟩
  generalize left : n + 1 = m at resends
  cases resends with
  | told c failure _ asks wants =>
    unfold StartPhase.wantsRetry at wants
    rcases asks with ⟨reply, rfl⟩ | ⟨deadline, reply, rfl⟩
    · split at wants
      · rename_i place
        obtain ⟨rfl, rfl, rfl, rfl⟩ := by simpa using place
        simp only [Session.stepStart]
        split <;> exact ⟨_, _, _, rfl⟩
      · simp_all
      · simp at wants
    · split at wants
      · simp_all
      · rename_i place
        obtain ⟨rfl, rfl, rfl, rfl, rfl⟩ := by simpa using place
        simp only [Session.stepStart]
        split
        · exact ⟨_, _, _, rfl⟩
        · split <;> exact ⟨_, _, _, rfl⟩
      · simp at wants
  | numbered c id call place => exact goes rfl ⟨id, Or.inl place⟩
  | registered c id call place => exact goes rfl ⟨id, Or.inr place⟩
  | sent => simp at left

theorem Resends.step {now : Nat} {h h' : Host} {s s' : Session} (resends : Resends k (n + 1) p)
    (step : Session.StartStep now h s t p h' s' p')
    (sound : ∀ c, (Task.start p).connection? = some c → s.Sound c) : Resends k n p' := by
  -- a call goes on with its next step
  have called : ∀ {c : Nat} {call : Call}, p = .initializing c (k + 1) call →
      (∃ id, call.phase = .admitted id ∨ call.phase = .registered id) →
      ∃ s₁ call', Session.Called now s c call s₁ call' ∧
        (call'.result? = none → p' = .initializing c (k + 1) call') := by
    rintro c call rfl ⟨id, place⟩
    cases step with
    | called _ _ _ s₁ call' unanswered step waits => exact ⟨_, call', step, fun _ => rfl⟩
    | concluded _ _ _ result _ _ _ ended =>
      rcases place with place | place <;> simp [Call.result?, place] at ended
    | answered _ _ _ s₁ call' result _ _ _ unanswered step ended =>
      exact ⟨s₁, call', step, by simp [ended]⟩
    | retried _ _ _ _ _ place | gaveUp _ _ _ _ place | unwritten _ _ _ place => simp at place
  generalize left : n + 1 = m at resends
  cases resends with
  | told c failure _ asks wants =>
    obtain rfl : n = 2 := by omega
    have on : (Task.start p).connection? = some c := by
      rcases asks with ⟨_, rfl⟩ | ⟨_, _, rfl⟩ <;> rfl
    cases step with
    | retried c' k' _ s₁ call place begun =>
      obtain ⟨rfl, rfl⟩ : c' = c ∧ k' = k := by
        rcases asks with ⟨_, rfl⟩ | ⟨_, _, rfl⟩ <;> simp_all
      obtain ⟨-, rfl⟩ := begun.begins (h := h) (by exact (sound c' on).live)
      exact .numbered c' _ _ rfl
    | gaveUp c' k' _ failure' place why =>
      have same : c' = c := by rcases asks with ⟨_, rfl⟩ | ⟨_, _, rfl⟩ <;> simp_all
      simp [same, (sound c on).live, wants] at why
    | unwritten _ _ _ place =>
      rcases asks with ⟨_, rfl⟩ | ⟨_, _, rfl⟩ <;> simp at place
    | _ => rcases asks with ⟨_, same⟩ | ⟨_, _, same⟩ <;> simp at same
  | numbered c id call place =>
    obtain rfl : n = 1 := by omega
    obtain ⟨s₁, call', step, next⟩ := called rfl ⟨id, Or.inl place⟩
    cases step with
    | step connection phase step =>
      cases step with
      | registered id' place' live =>
        rw [next rfl]
        exact .registered c id' _ rfl
      | turnedAway id' place' past => simp [(sound c rfl).live] at past
      | _ => simp_all
  | registered c id call place =>
    obtain rfl : n = 0 := by omega
    obtain ⟨s₁, call', step, next⟩ := called rfl ⟨id, Or.inr place⟩
    cases step with
    | step connection phase step =>
      cases step with
      | written id' connection place' wrote =>
        rw [next rfl]
        exact .sent c id' _ _ rfl
      | unwritten id' e place' failed =>
        exact absurd (Connection.canWrite_eq_false_of_write failed).1 (by simp [(sound c rfl).can])
      | _ => simp_all
  | sent => simp at left

/-- A start takes its turn. -/
def Move.isStep (t : Nat) : Move → Bool
  | .act (.task i) => i = t
  | _ => false

theorem Move.isStep_iff {move : Move} : move.isStep t = true ↔ move = .act (.task t) := by
  unfold Move.isStep
  split <;> simp_all

/-- The writer of the connection that a task works on is held up. -/
def heldUp (d : Scene) (t : Nat) : Bool :=
  (d.session.tasks[t]?.bind Task.connection?).any d.session.busy

/-- How many turns a start has taken in which it did not find the writer held up. -/
def turnsTaken (setup : Setup) (t : Nat) (moves : List Move) : Nat :=
  ((machine setup).recorded (fun d move => [move.isStep t && !d.heldUp t]) moves).count true

theorem turnsTaken_concat (moves : List Move) (move : Move) :
    turnsTaken setup t (moves ++ [move]) = turnsTaken setup t moves +
      if (move.isStep t && !((machine setup).after moves).heldUp t) = true then 1 else 0 := by
  rw [turnsTaken, Machine.recorded_concat, List.count_append, List.count_singleton]
  simp [turnsTaken]

theorem busy_of_not_heldUp (here : d.session.tasks[t]? = some task) (free : d.heldUp t = false) :
    ∀ c, task.connection? = some c → d.session.busy c = false := by
  intro c works
  simpa [heldUp, here, works] using free

/-- What was sent stays sent. -/
theorem countP_handshakeOf_le (moves : List Move) (move : Move) :
    (handshakeOf setup t moves).countP (·.isSent) ≤
      (handshakeOf setup t (moves ++ [move])).countP (·.isSent) := by
  simp only [handshakeOf, Machine.recorded_concat, List.countP_append]
  exact Nat.le_add_right ..

theorem sent_of_resends (resends : Resends k 0 p) (unstopped : Move.stop ∉ moves)
    (stays : (machine setup).Always moves (·.Open t))
    (here : ((machine setup).after moves).session.tasks[t]? = some (.start p)) :
    k + 1 ≤ (handshakeOf setup t moves).countP (·.isSent) := by
  obtain ⟨stage, presents, loop⟩ := (handshake_after moves unstopped stays).2 p here
  cases resends with
  | sent c id deadline call place =>
    rcases presents.of_initializing with ⟨n, offers, -⟩ | ⟨-, rfl⟩
    · obtain ⟨id', place' | place'⟩ := offers.place <;> simp [place] at place'
    · exact Nat.le_of_eq loop.counted.sent.symm

/-- The request of the next attempt is sent by the third turn of a start that was told to try again. -/
theorem sent_after (asks : ∃ c failure, p.Asks c k failure) (wants : p.wantsRetry = true)
    (here : ((machine setup).after moves).session.tasks[t]? = some (.start p)) (more : List Move)
    (unstopped : Move.stop ∉ moves ++ more) (stays : (machine setup).Always (moves ++ more) (·.Open t))
    (turns : turnsTaken setup t moves + 3 ≤ turnsTaken setup t (moves ++ more)) :
    k + 1 ≤ (handshakeOf setup t (moves ++ more)).countP (·.isSent) := by
  -- the start comes nearer with each of its turns, or has sent the request
  have nearer : Move.stop ∉ moves ++ more → (machine setup).Always (moves ++ more) (·.Open t) →
      (∃ n p, ((machine setup).after (moves ++ more)).session.tasks[t]? = some (.start p) ∧
        Resends k n p ∧ n + turnsTaken setup t (moves ++ more) ≤ turnsTaken setup t moves + 3) ∨
      k + 1 ≤ (handshakeOf setup t (moves ++ more)).countP (·.isSent) := by
    refine (machine setup).run_induction_from moves (fun more d => Move.stop ∉ moves ++ more →
      (machine setup).Always (moves ++ more) (·.Open t) →
      (∃ n p, d.session.tasks[t]? = some (.start p) ∧ Resends k n p ∧
        n + turnsTaken setup t (moves ++ more) ≤ turnsTaken setup t moves + 3) ∨
      k + 1 ≤ (handshakeOf setup t (moves ++ more)).countP (·.isSent)) ?_ ?_ more
    · intro _ _
      obtain ⟨c, failure, asks⟩ := asks
      exact Or.inl ⟨3, p, here, .told c failure p asks wants, by simp; omega⟩
    · intro more move ih unstopped stays
      rw [← List.append_assoc] at unstopped stays ⊢
      have earlier : Move.stop ∉ moves ++ more := fun stop => unstopped (List.mem_append_left _ stop)
      have opened := (Machine.always_concat.mp stays).1
      rcases ih earlier opened with ⟨n, p, there, resends, turns⟩ | sent
      · cases n with
        | zero =>
          exact Or.inr (Nat.le_trans (sent_of_resends resends earlier opened there)
            (countP_handshakeOf_le (moves ++ more) move))
        | succ n =>
          rw [Machine.after_concat, step_machine, turnsTaken_concat]
          by_cases own : (move.isStep t && !((machine setup).after (moves ++ more)).heldUp t) = true
          · obtain ⟨mine, free⟩ := Bool.and_eq_true_iff.mp own
            obtain rfl := Move.isStep_iff.mp mine
            obtain ⟨h', s', p', step⟩ := resends.exists_step
              (busy_of_not_heldUp there (by simpa using free))
              ((machine setup).after (moves ++ more)).now ((machine setup).after (moves ++ more)).host t
            have next := resends.step (Session.stepStart_cases step) (sound_after opened.now there)
            refine Or.inl ⟨n, p', ?_, next, ?_⟩
            · rw [step_of_stepStart there step]
              exact (Session.TaskStep.start p h' s' p' (Session.stepStart_cases step)).self there
            · rw [if_pos own]
              omega
          · rw [if_neg own, Nat.add_zero]
            -- a step that does not count may be one for which the writer is not needed
            rcases start_cases (covered_after (moves ++ more)) (guarded_after (moves ++ more)) there
              move with ⟨same, -⟩ | ⟨h, s₁, p', -, step, after, -⟩
            · exact Or.inl ⟨n + 1, p, same, resends, turns⟩
            · have next := resends.step step (sound_after opened.now there)
              exact Or.inl ⟨n, p', after, next, by omega⟩
      · exact Or.inr (Nat.le_trans sent (countP_handshakeOf_le (moves ++ more) move))
  rcases nearer unstopped stays with ⟨n, p', there, resends, left⟩ | sent
  · obtain rfl : n = 0 := by omega
    exact sent_of_resends resends unstopped stays there
  · exact sent

/-- The number of the attempt that a start is at never gets ahead of the number of moves: thirty-two bits
    hold it along every run of fewer than `2 ^ 32` moves. -/
theorem attempt_le_length (moves : List Move) : ∀ (t : Nat) (p : StartPhase),
    ((machine setup).after moves).session.tasks[t]? = some (.start p) → p.attempt ≤ moves.length := by
  refine run_changes (fun moves d => ∀ (t : Nat) (p : StartPhase),
    d.session.tasks[t]? = some (.start p) → p.attempt ≤ moves.length) ?_ ?_ moves
  · simp [machine, Session.ofConfig]
  · rintro moves move d d' rfl rfl change ih t p here'
    rw [List.length_append, List.length_singleton]
    generalize place : Task.start p = task at here'
    cases change.came here' with
    | stayed _ here => exact Nat.le_succ_of_le (ih t p (place ▸ here))
    | called _ absent fresh =>
      cases fresh <;> simp only [Task.start.injEq, reduceCtorEq] at place
      exact place ▸ Nat.zero_le _
    | born _ absent born => cases born <;> simp at place
    | fired => simp at place
    | stepped old _ s₁ here step result =>
      subst place
      generalize ((machine setup).after (moves ++ [move])).host = h' at step
      cases step with
      | start q _ _ _ step => exact Nat.le_trans step.attempt_le (Nat.succ_le_succ (ih t q here))

/-- **The handshake of a start.**  Whatever else goes on beside it, as long as nobody stops the session and
    the connection stays open, what is seen of a start is what the loop `Handshake` does: the options
    are resolved and a request is sent once for each attempt, and there is an attempt after the first
    one for each decision to try again (`Counted`); each failure is put to the policy with the number of
    its attempt, if there is one, and without a policy the user is asked about those for which the
    server has asked for another try with a code of its own; and the start has ended, if its handshake
    has begun, without an error when a reply could be read, and with the last failure, one of the
    handshake, otherwise.  A start that is to try again sends the next request by its third turn, where
    those count that do not find the writer held up. -/
theorem handshake_loop (setup : Setup) (moves : List Move) (t : Nat) (p : StartPhase)
    (unstopped : Move.stop ∉ moves) (stays : (machine setup).Always moves (·.Open t))
    (here : ((machine setup).after moves).session.tasks[t]? = some (.start p)) :
    ∃ stage, p.Presents setup.server.name setup.options stage ∧
      Handshake setup.server.name setup.options (handshakeOf setup t moves) stage ∧
      Counted (handshakeOf setup t moves) stage ∧
      (∀ result, p = .ended result → stage = .idle ∨ match result with
        | .ok _ => ∃ k r, stage = .ended k (.ok r)
        | .error e => ∃ k reason retry, e = .handshake reason retry ∧ stage = .ended k (.error e)) ∧
      (p.wantsRetry = true → ∃ k failure, stage = .deciding k failure ∧ ∀ more,
        Move.stop ∉ moves ++ more → (machine setup).Always (moves ++ more) (·.Open t) →
        turnsTaken setup t moves + 3 ≤ turnsTaken setup t (moves ++ more) →
        k + 1 ≤ (handshakeOf setup t (moves ++ more)).countP (·.isSent)) := by
  obtain ⟨stage, presents, loop⟩ := (handshake_after moves unstopped stays).2 p here
  refine ⟨stage, presents, loop, loop.counted, ?_, ?_⟩
  · rintro result rfl
    cases presents with
    | apart => exact Or.inl rfl
    | deciding _ _ _ _ asks => rcases asks with ⟨_, same⟩ | ⟨_, _, same⟩ <;> simp at same
    | accepted k r _ accepted =>
      cases result with
      | ok => exact Or.inr ⟨k, r, rfl⟩
      | error => exact accepted.elim
    | failed k e _ failed =>
      cases result with
      | ok => exact failed.elim
      | error e' =>
        -- the failure is the one the loop ended with
        obtain rfl : e' = e := failed
        obtain ⟨reason, retry, same⟩ := loop.failure_eq e' ⟨k, Or.inr rfl⟩
        exact Or.inr ⟨k, reason, retry, same, rfl⟩
  · intro wants
    cases presents with
    | deciding c k failure _ asks =>
      exact ⟨k, failure, rfl, fun more unstopped' stays' turns =>
        sent_after ⟨c, failure, asks⟩ wants here more unstopped' stays' turns⟩
    | apart _ idle =>
      rcases idle with idle | ⟨c, rfl⟩
      · cases p <;> simp [Task.connection?, StartPhase.wantsRetry] at idle wants
      · simp [StartPhase.wantsRetry] at wants
    | sending | waiting => simp [StartPhase.wantsRetry] at wants
    | accepted k r _ accepted =>
      cases p <;> first | exact accepted.elim | simp [StartPhase.wantsRetry] at wants
    | failed k e _ failed =>
      cases p <;> first | exact failed.elim | simp [StartPhase.wantsRetry] at wants

/-- A start that has been told to try again. -/
def toldToRetry (d : Scene) (t : Nat) : Bool :=
  match d.session.tasks[t]? with
  | some (.start p) => p.wantsRetry
  | _ => false

theorem exists_of_toldToRetry (told : d.toldToRetry t = true) :
    ∃ p, d.session.tasks[t]? = some (.start p) ∧ p.wantsRetry = true := by
  unfold toldToRetry at told
  split at told
  · rename_i p here
    exact ⟨p, here, told⟩
  · simp at told

/-- The server is not ready, and the user wants another try. -/
def askedOnce : List Move :=
  [.start] ++ goesOn 6 ++ refused 1 "not ready" true ++ goesOn 1

/-- The start makes a second attempt. -/
theorem handshake_loop_askedOnce :
    (∃ stage, Handshake "fake" {} (handshakeOf agreeing 0 askedOnce) stage) ∧
    (handshakeOf agreeing 0 askedOnce).countP (·.isSent) = 1 ∧
    2 ≤ (handshakeOf agreeing 0 (askedOnce ++ goesOn 3)).countP (·.isSent) := by
  have stays : (machine agreeing).Always (askedOnce ++ goesOn 3) (·.Open 0) :=
    Machine.always_iff.mpr (by decide +kernel)
  have unstopped : Move.stop ∉ askedOnce ++ goesOn 3 := by simp [askedOnce, refused, goesOn]
  obtain ⟨p, here, wants⟩ : ∃ p, ((machine agreeing).after askedOnce).session.tasks[0]? =
      some (.start p) ∧ p.wantsRetry = true := exists_of_toldToRetry (by decide +kernel)
  have stays' : (machine agreeing).Always askedOnce (·.Open 0) :=
    fun before later split => stays before (later ++ goesOn 3) (by rw [split, List.append_assoc])
  have unstopped' : Move.stop ∉ askedOnce := fun stop => unstopped (List.mem_append_left _ stop)
  obtain ⟨stage, -, loop, counted, -, again⟩ :=
    handshake_loop agreeing askedOnce 0 p unstopped' stays' here
  obtain ⟨k, failure, rfl, sends⟩ := again wants
  have once : (handshakeOf agreeing 0 askedOnce).countP (·.isSent) = 1 := by decide +kernel
  obtain rfl : k = 1 := by
    have sent := counted.sent
    simp only [HandshakeStage.unsent, HandshakeStage.attempt] at sent
    omega
  exact ⟨⟨_, loop⟩, once, sends (goesOn 3) unstopped stays (by decide +kernel)⟩

/-- The server asks for another try, with the code that stands for the end of its connection: nobody is
    asked, and the start has failed. -/
theorem reserved_code_unasked :
    let moves := refusedBy (notReady ErrorCode.serverTerminated) ++ [.act (.reader 0)] ++ goesOn 8
    agreeing.options.policy.isNone = true ∧
    ClientError.asksForRetry (notReady ErrorCode.serverTerminated).data = true ∧
    .replied (.failure (.number 1) (notReady ErrorCode.serverTerminated)) ∈
      handshakeOf agreeing 0 moves ∧
    .asked (askedFor "workspace not ready") ∉ handshakeOf agreeing 0 moves ∧
    (handshakeOf agreeing 0 moves).countP (·.isSent) = 1 ∧
    ((machine agreeing).after moves).startError? 0 =
      some (.handshake "fake language server terminated unexpectedly" false) := by
  decide +kernel

end Scene

end LanguageClient
