import LanguageClient.Proofs.Connection.Dialogue
/-!
# Turns of a connection

What a move does to the requests of the server, and to the end of the connection.  The read loop
takes a request, finds out whether it has a handler, and refuses it or starts a job for it; the job
runs the handler, takes the id out of the table and answers.  `Turn` lists these turns, and the two of
the end: the read loop drains the table of requests and releases the jobs.  Everything else is
`Aside`: it writes no response and leaves the jobs and the end alone.

`turn_message`, `turn_readOn`, `turn_stepRead`, `turn_stepJob`, `turn_finishJob`, `Call.Step.aside` and
`Dialogue.step_turn` are the only proofs that look into the steps.
-/

namespace LanguageClient

/-- The response that a message is. -/
def Message.response? : Message → Option Response
  | .response r => some r
  | _ => none

/-- Whether the read loop is under way with no request of the server in hand, and not at its end. -/
def ReadPhase.isPlain : ReadPhase → Bool
  | .reading | .settling .. | .cancelling _ | .noticing _ | .handling _ | .crashed => true
  | .idle | .dispatching _ | .refusing _ | .admitting _ | .draining | .releasing | .ended => false

/-- Whether the read loop ends the connection, or has done so. -/
def ReadPhase.isEnding : ReadPhase → Bool
  | .draining | .releasing | .ended => true
  | _ => false

theorem ReadPhase.isEnding_of_isPlain {p : ReadPhase} (plain : p.isPlain = true) :
    p.isEnding = false := by
  cases p <;> simp_all [isPlain, isEnding]

/-- Whether a move is made by somebody who closes the connection. -/
def Dialogue.Move.isClosing : Move → Bool
  | .beginClose | .close _ => true
  | _ => false

namespace Connection

variable {c c' : Connection}

def answers (c : Connection) : List Response :=
  c.sent.filterMap Message.response?

/-- Nothing happens to the requests of the server, and the connection does not end. -/
structure Aside (c c' : Connection) : Prop where
  listening : c'.listening = c.listening
  terminated : c'.terminated = c.terminated
  jobs : c'.jobs = c.jobs
  incoming : c'.incoming = c.incoming
  answers : c'.answers = c.answers
  readPhase : c'.readPhase = c.readPhase ∨
    (c.readPhase.isPlain = true ∧ c'.readPhase.isPlain = true)
  /-- Nobody enters the table of requests after the end. -/
  pending : c.terminated = true → ∀ k ∈ c'.pending, k ∈ c.pending

namespace Aside

theorem refl (c : Connection) : Aside c c :=
  ⟨rfl, rfl, rfl, rfl, rfl, Or.inl rfl, fun _ _ => id⟩

/-- The read loop goes from one plain place to another. -/
theorem of_plain (listening : c'.listening = c.listening) (terminated : c'.terminated = c.terminated)
    (jobs : c'.jobs = c.jobs) (incoming : c'.incoming = c.incoming) (sent : c'.sent = c.sent)
    (pending : c'.pending = c.pending) (place : c.readPhase.isPlain = true)
    (place' : c'.readPhase.isPlain = true) : Aside c c' :=
  ⟨listening, terminated, jobs, incoming, by simp [Connection.answers, sent], Or.inr ⟨place, place'⟩,
    fun _ _ among => pending ▸ among⟩

/-- The read loop stays, and nothing but other messages is written. -/
theorem of_sent (listening : c'.listening = c.listening) (terminated : c'.terminated = c.terminated)
    (jobs : c'.jobs = c.jobs) (incoming : c'.incoming = c.incoming)
    (sent : c'.sent = c.sent ∨ ∃ m, m.response? = none ∧ c'.sent = c.sent ++ [m])
    (readPhase : c'.readPhase = c.readPhase)
    (pending : c.terminated = true → ∀ k ∈ c'.pending, k ∈ c.pending) : Aside c c' := by
  refine ⟨listening, terminated, jobs, incoming, ?_, Or.inl readPhase, pending⟩
  rcases sent with same | ⟨m, other, wrote⟩
  · simp [Connection.answers, same]
  · simp [Connection.answers, wrote, List.filterMap_append, other]

/-- Only what the end and the requests of the server do not depend on changes. -/
theorem of_silent (listening : c'.listening = c.listening) (terminated : c'.terminated = c.terminated)
    (jobs : c'.jobs = c.jobs) (incoming : c'.incoming = c.incoming) (sent : c'.sent = c.sent)
    (readPhase : c'.readPhase = c.readPhase) (pending : c'.pending = c.pending) : Aside c c' :=
  .of_sent listening terminated jobs incoming (Or.inl sent) readPhase
    fun _ _ among => pending ▸ among

end Aside

theorem aside_tryWrite (c : Connection) {m : Message} (other : m.response? = none) :
    Aside c (c.tryWrite m) := by
  rcases c.tryWrite_cases m with ⟨-, wrote⟩ | ⟨-, failed⟩
  · rw [wrote]
    exact .of_sent rfl rfl rfl rfl (Or.inr ⟨m, other, rfl⟩) rfl fun _ _ => id
  · rw [failed]
    exact .refl c

/-- A response of the server changes the tables of the client's own requests only. -/
theorem aside_settle (place : c.readPhase.isPlain = true) (id : RequestId) (r : Response) :
    Aside c { c.settle id r with readPhase := .reading } := by
  rcases c.settle_cases id r with ⟨k, -, -, settled⟩ | ⟨-, settled⟩
  · rw [settled]
    exact ⟨rfl, rfl, rfl, rfl, rfl, Or.inr ⟨place, rfl⟩, fun _ _ => List.mem_of_mem_erase⟩
  · rw [settled]
    exact .of_plain rfl rfl rfl rfl rfl rfl place rfl

theorem mapIdx_job (jobs : List Job) : (jobs.mapIdx fun _ job => job) = jobs :=
  List.ext_getElem? (by simp)

/-- A cancellation concerns the job that is in the table under the id. -/
theorem cancelIncoming_eq (c : Connection) (id : RequestId) :
    c.cancelIncoming id = { c with
      jobs := c.jobs.mapIdx fun j job =>
        if c.incoming.get? id = some j then { job with cancelled := true } else job } := by
  unfold cancelIncoming
  cases found : c.incoming.get? id with
  | none => simp [mapIdx_job]
  | some j =>
    simp only [modifyJob, Option.some.injEq]
    congr 1
    refine List.ext_getElem? fun i => ?_
    by_cases same : j = i <;> simp [same]

/-- At the end all jobs in the table are cancelled, and the table is emptied. -/
theorem release_eq (c : Connection) :
    c.release = { c with
      incoming := []
      jobs := c.jobs.mapIdx fun j job =>
        if j ∈ c.incoming.values then { job with cancelled := true } else job } := by
  have cancelled : ∀ (js : List Nat) (c : Connection),
      js.foldl (fun c j => c.modifyJob j fun job => { job with cancelled := true }) c = { c with
        jobs := c.jobs.mapIdx fun j job =>
          if j ∈ js then { job with cancelled := true } else job } := by
    intro js
    induction js with
    | nil => simp [mapIdx_job]
    | cons j js ih =>
      intro c
      rw [List.foldl_cons, ih]
      simp only [modifyJob]
      congr 1
      refine List.ext_getElem? fun i => ?_
      by_cases same : j = i
      · subst same
        cases here : c.jobs[j]? <;> simp [here]
      · cases here : c.jobs[i]? <;> simp [here, same, Ne.symm same]
  simp only [release, cancelled]

/-- What a move can do to the requests of the server and to the end of the connection. -/
inductive Turn (c : Connection) : Connection → Prop where
  | aside {c' : Connection} (h : Aside c c') : Turn c c'
  | listened (silent : c.listening = false) :
      Turn c { c with listening := true, readPhase := .reading }
  /-- The read loop takes a request of the server. -/
  | took (request : Request) (reader : FrameReader) (place : c.readPhase = .reading) :
      Turn c { c with reader, readPhase := .dispatching request }
  | routed (request : Request) (place : c.readPhase = .dispatching request) :
      Turn c { c with
        readPhase := if c.requestMethods.contains request.method then .admitting request
          else .refusing request }
  | refused (request : Request) (place : c.readPhase = .refusing request) :
      Turn c { c with
        sent := if c.canWrite then
          c.sent ++ [.response (.failure request.id (.methodNotFound request.method))] else c.sent
        readPhase := .reading }
  | admitted (request : Request) (place : c.readPhase = .admitting request) :
      Turn c { c.spawnJob request with readPhase := .reading }
  | cancelled (id : RequestId) (place : c.readPhase = .cancelling id) :
      Turn c { c with
        jobs := c.jobs.mapIdx fun j job =>
          if c.incoming.get? id = some j then { job with cancelled := true } else job
        readPhase := .reading }
  /-- The read loop begins to end the connection. -/
  | left (reader : FrameReader) (place : c.readPhase = .reading) :
      Turn c { c with reader, terminated := true, readPhase := .draining }
  | drained (place : c.readPhase = .draining) : Turn c { c.drain with readPhase := .releasing }
  | released (place : c.readPhase = .releasing) :
      Turn c { c with
        incoming := []
        jobs := c.jobs.mapIdx fun j job =>
          if j ∈ c.incoming.values then { job with cancelled := true } else job
        readPhase := .ended }
  | started (j : Nat) (job : Job) (here : c.jobs[j]? = some job) (place : job.phase = .spawned) :
      Turn c { c with jobs := c.jobs.set j { job with phase := .running } }
  | returned (j : Nat) (job : Job) (outcome : HandlerOutcome) (here : c.jobs[j]? = some job)
      (place : job.phase = .running) :
      Turn c { c with jobs := c.jobs.set j { job with phase := .returned outcome } }
  | removed (j : Nat) (job : Job) (outcome : HandlerOutcome) (here : c.jobs[j]? = some job)
      (place : job.phase = .returned outcome) :
      Turn c { c with
        incoming := c.incoming.erase job.request.id
        jobs := c.jobs.set j { job with phase := .answering (answerFor job.request outcome) } }
  | answered (j : Nat) (job : Job) (response : Response) (here : c.jobs[j]? = some job)
      (place : job.phase = .answering response) :
      Turn c { c with
        sent := if c.canWrite then c.sent ++ [.response response] else c.sent
        jobs := c.jobs.set j { job with phase := .ended } }

/-- A job that is there is changed in its place. -/
theorem modifyJob_eq_set {j : Nat} {job : Job} (here : c.jobs[j]? = some job) (f : Job → Job) :
    c.modifyJob j f = { c with jobs := c.jobs.set j (f job) } := by
  simp [modifyJob, List.modify_eq_set, here]

/-- The read loop goes on with a message that it has taken. -/
theorem turn_message (place : c.readPhase = .reading) (m : Message) (reader : FrameReader) :
    Turn c { c with reader, readPhase := phaseFor m } := by
  have plain : c.readPhase.isPlain = true := by rw [place]; rfl
  cases m with
  | request request => exact .took request reader place
  | response r =>
    refine .aside (.of_plain rfl rfl rfl rfl rfl rfl plain ?_)
    cases id : r.id <;> simp [phaseFor, id, ReadPhase.isPlain]
  | notification n =>
    refine .aside (.of_plain rfl rfl rfl rfl rfl rfl plain ?_)
    simp only [phaseFor]
    split
    · split <;> rfl
    · rfl

/-- A loop that goes on takes a request at most. -/
theorem turn_readOn (h : c.readOn = some c') : Turn c c' := by
  obtain ⟨place, ⟨m, reader, -, rfl⟩ | ⟨e, reader, -, -, rfl⟩⟩ := readOn_cases h
  · exact turn_message place m reader
  · have plain : c.readPhase.isPlain = true := by rw [place]; rfl
    exact .aside (.of_plain rfl rfl rfl rfl rfl rfl plain plain)

theorem turn_stepRead (h : c.stepRead = some c') : Turn c c' := by
  unfold stepRead at h
  split at h
  · simp at h
  · simp at h
  · simp at h
  · simp at h
  · rename_i place
    have plain : c.readPhase.isPlain = true := by rw [place]; rfl
    split at h
    · obtain rfl := Option.some.inj h
      exact .left c.reader place
    · split at h
      · simp at h
      · rename_i reader _
        obtain rfl := Option.some.inj h
        exact .left reader place
      · rename_i reader _
        split at h
        · obtain rfl := Option.some.inj h
          exact .aside (.of_plain rfl rfl rfl rfl rfl rfl plain plain)
        · obtain rfl := Option.some.inj h
          exact .left reader place
      · rename_i m reader _
        obtain rfl := Option.some.inj h
        exact turn_message place m reader
  · rename_i id r place
    obtain rfl := Option.some.inj h
    exact .aside (aside_settle (by rw [place]; rfl) id r)
  · rename_i request place
    obtain rfl := Option.some.inj h
    exact .routed request place
  · rename_i request place
    split at h
    · simp at h
    · obtain rfl := Option.some.inj h
      rw [tryWrite_eq]
      exact .refused request place
  · rename_i request place
    obtain rfl := Option.some.inj h
    exact .admitted request place
  · rename_i id place
    obtain rfl := Option.some.inj h
    rw [cancelIncoming_eq]
    exact .cancelled id place
  · rename_i n place
    obtain rfl := Option.some.inj h
    refine .aside (.of_plain rfl rfl rfl rfl rfl rfl (by rw [place]; rfl) ?_)
    simp only
    split <;> rfl
  · rename_i place
    obtain rfl := Option.some.inj h
    exact .drained place
  · rename_i place
    obtain rfl := Option.some.inj h
    rw [release_eq]
    exact .released place

theorem turn_stepJob {j : Nat} (h : c.stepJob j = some c') : Turn c c' := by
  unfold stepJob at h
  cases here : c.jobs[j]? with
  | none => simp [here] at h
  | some job =>
    simp only [here, Option.bind_eq_bind, Option.bind_some] at h
    split at h
    · rename_i place
      obtain rfl := Option.some.inj h
      rw [modifyJob_eq_set here]
      exact .started j job here place
    · simp at h
    · simp at h
    · rename_i outcome place
      obtain rfl := Option.some.inj h
      rw [modifyJob_eq_set (c := { c with incoming := c.incoming.erase job.request.id }) here]
      exact .removed j job outcome here place
    · rename_i response place
      split at h
      · simp at h
      · obtain rfl := Option.some.inj h
        have there : (c.tryWrite (.response response)).jobs[j]? = some job := by
          rw [tryWrite_eq]
          exact here
        rw [modifyJob_eq_set there, tryWrite_eq]
        exact .answered j job response here place

theorem turn_finishJob (c : Connection) (j : Nat) (outcome : HandlerOutcome) :
    Turn c (c.finishJob j outcome) := by
  unfold finishJob
  cases here : c.jobs[j]? with
  | none =>
    have same : ∀ f, c.modifyJob j f = c := fun f => by
      simp [modifyJob, List.modify_eq_self (List.getElem?_eq_none_iff.mp here)]
    rw [same]
    exact .aside (.refl c)
  | some job =>
    rw [modifyJob_eq_set here]
    split
    · rename_i place
      exact .returned j job outcome here place
    · have same : c.jobs.set j job = c.jobs := by
        obtain ⟨short, rfl⟩ := List.getElem?_eq_some_iff.mp here
        simp
      rw [same]
      exact .aside (.refl c)

end Connection

/-- Where a job may stand after a turn. -/
inductive Job.Moves (job : Job) : JobPhase → Prop where
  | stays : Moves job job.phase
  | starts (place : job.phase = .spawned) : Moves job .running
  | ends (outcome : HandlerOutcome) (place : job.phase = .running) : Moves job (.returned outcome)
  | leaves (outcome : HandlerOutcome) (place : job.phase = .returned outcome) :
      Moves job (.answering (Connection.answerFor job.request outcome))
  | answers (response : Response) (place : job.phase = .answering response) : Moves job .ended

/-- A job is about to answer because its handler has ended, or has been so before. -/
theorem Job.Moves.answering {job : Job} {phase : JobPhase} (moves : job.Moves phase)
    {response : Response} (place : phase = .answering response) :
    job.phase = .answering response ∨ ∃ outcome, job.phase = .returned outcome ∧
      response = Connection.answerFor job.request outcome := by
  cases moves with
  | stays => exact Or.inl place
  | leaves outcome before => exact Or.inr ⟨outcome, before, (JobPhase.answering.inj place).symm⟩
  | _ => simp at place

namespace Connection

variable {c c' : Connection}

def JobAt (c : Connection) (j : Nat) (job' : Job) : Prop :=
  (c.jobs[j]? = none ∧ c.readPhase = .admitting job'.request ∧ job'.phase = .spawned) ∨
    ∃ job : Job, c.jobs[j]? = some job ∧ job'.request = job.request ∧ job.Moves job'.phase

theorem JobAt.of_set {j i : Nat} {job job' : Job} {phase : JobPhase} (here : c.jobs[i]? = some job)
    (moves : job.Moves phase) (here' : (c.jobs.set i { job with phase })[j]? = some job') :
    c.JobAt j job' := by
  by_cases same : i = j
  · subst same
    have short := (List.getElem?_eq_some_iff.mp here).1
    obtain rfl : _ = job' := by simpa [short] using here'
    exact Or.inr ⟨job, here, rfl, moves⟩
  · exact Or.inr ⟨job', by rwa [List.getElem?_set_ne same] at here', rfl, .stays⟩

theorem JobAt.of_mapIdx {j : Nat} {job' : Job} {f : Nat → Job → Prop} [∀ j job, Decidable (f j job)]
    (here' : (c.jobs.mapIdx fun j job =>
      if f j job then { job with cancelled := true } else job)[j]? = some job') : c.JobAt j job' := by
  obtain ⟨job, here, rfl⟩ := Option.map_eq_some_iff.mp ((List.getElem?_mapIdx ..).symm.trans here')
  refine Or.inr ⟨job, here, ?_⟩
  split
  · exact ⟨rfl, .stays⟩
  · exact ⟨rfl, .stays⟩

namespace Turn

/-- Every job after a turn is new, or one of those before. -/
theorem jobAt (turn : c.Turn c') {j : Nat} {job' : Job} (here' : c'.jobs[j]? = some job') :
    c.JobAt j job' := by
  cases turn with
  | aside h => exact Or.inr ⟨job', h.jobs ▸ here', rfl, .stays⟩
  | admitted request place =>
    simp only [spawnJob, List.getElem?_append] at here'
    split at here'
    · exact Or.inr ⟨job', here', rfl, .stays⟩
    · rename_i long
      obtain ⟨-, rfl⟩ : j - c.jobs.length = 0 ∧ ({ request } : Job) = job' := by
        simpa [List.getElem?_singleton] using here'
      exact Or.inl ⟨List.getElem?_eq_none (by omega), place, rfl⟩
  | cancelled id => exact .of_mapIdx here'
  | released => exact .of_mapIdx here'
  | started i job here place => exact .of_set here (.starts place) here'
  | returned i job outcome here place => exact .of_set here (.ends outcome place) here'
  | removed i job outcome here place => exact .of_set here (.leaves outcome place) here'
  | answered i job response here place => exact .of_set here (.answers response place) here'
  | _ => exact Or.inr ⟨job', here', rfl, .stays⟩

theorem terminated (turn : c.Turn c') (past : c.terminated = true) : c'.terminated = true := by
  cases turn with
  | aside h => exact h.terminated.trans past
  | left => rfl
  | _ => exact past

theorem mem_pending (turn : c.Turn c') (past : c.terminated = true) {k : Nat} (among : k ∈ c'.pending) :
    k ∈ c.pending := by
  cases turn with
  | aside h => exact h.pending past k among
  | drained => simp at among
  | _ => exact among

/-- As long as nobody listens the read loop does nothing. -/
theorem idle (turn : c.Turn c') (h : c.listening = false → c.readPhase = .idle)
    (silent : c'.listening = false) : c'.readPhase = .idle := by
  cases turn with
  | aside aside =>
    have idle := h (aside.listening ▸ silent)
    rcases aside.readPhase with same | ⟨plain, -⟩
    · exact same.trans idle
    · simp [idle, ReadPhase.isPlain] at plain
  | listened => simp at silent
  | admitted request place | drained place => simp [h silent] at place
  | _ => simp_all

/-- The read loop ends a connection only after the flag is set. -/
theorem terminated_of_isEnding (turn : c.Turn c')
    (h : c.readPhase.isEnding = true → c.terminated = true)
    (place' : c'.readPhase.isEnding = true) : c'.terminated = true := by
  cases turn with
  | aside aside =>
    refine aside.terminated.trans (h ?_)
    rcases aside.readPhase with same | ⟨-, plain⟩
    · exact same ▸ place'
    · simp [ReadPhase.isEnding_of_isPlain plain] at place'
  | left => rfl
  | routed => split at place' <;> simp [ReadPhase.isEnding] at place'
  | drained place | released place => exact h (by simp [place, ReadPhase.isEnding])
  | started | returned | removed | answered => exact h place'
  | _ => simp [ReadPhase.isEnding] at place'

/-- When the flag is set the read loop is about to drain; before it goes on it has drained. -/
theorem draining_or (turn : c.Turn c') (h : c.listening = false → c.readPhase = .idle)
    (past : c'.terminated = true) :
    c'.readPhase = .draining ∨
      (c.terminated = true ∧ (c.readPhase = .draining → c'.pending = [])) := by
  cases turn with
  | aside aside =>
    by_cases place : c.readPhase = .draining
    · rcases aside.readPhase with same | ⟨plain, -⟩
      · exact Or.inl (same.trans place)
      · simp [place, ReadPhase.isPlain] at plain
    · exact Or.inr ⟨aside.terminated ▸ past, fun here => absurd here place⟩
  | left => exact Or.inl rfl
  | drained => exact Or.inr ⟨past, fun _ => rfl⟩
  | listened silent => exact Or.inr ⟨past, fun place => by simp [h silent] at place⟩
  | started | returned | removed | answered =>
    by_cases place : c.readPhase = .draining
    · exact Or.inl place
    · exact Or.inr ⟨past, fun here => absurd here place⟩
  | _ => exact Or.inr ⟨past, by simp_all⟩

end Turn

end Connection

/-- A call has no part in the requests of the server. -/
theorem Call.Step.aside {now : Nat} {c c' : Connection} {call : Call} {phase : CallPhase}
    (step : Step now c call c' phase) : c.Aside c' := by
  cases step with
  | refused | turnedAway | unwritten | gaveUp => exact .refl c
  | numbered | answered => exact .of_silent rfl rfl rfl rfl rfl rfl rfl
  | registered id place live =>
    exact .of_sent rfl rfl rfl rfl (Or.inl rfl) rfl fun past => by simp [live] at past
  | written k _ place wrote =>
    obtain ⟨-, rfl⟩ := Connection.canWrite_of_write wrote
    exact .of_sent rfl rfl rfl rfl (Or.inr ⟨_, rfl, rfl⟩) rfl fun _ _ => id
  | withdrawn | forgotten =>
    exact .of_sent rfl rfl rfl rfl (Or.inl rfl) rfl fun _ _ => List.mem_of_mem_erase
  | late => exact .of_silent rfl rfl rfl rfl rfl rfl rfl
  | notified id => exact c.aside_tryWrite rfl

/-- Every move of a dialogue is a turn of its connection, but for those who close it. -/
theorem Dialogue.step_turn (d : Dialogue) {move : Move} (other : move.isClosing = false) :
    d.connection.Turn (d.step move).connection := by
  -- most moves are aside: they write no response and leave the jobs and the end alone
  have aside : ∀ {c : Option Connection},
      (∀ c', c = some c' → d.connection.Aside c') → d.connection.Turn (d.touch c).connection := by
    intro c same
    cases c with
    | none => exact .aside (.refl _)
    | some c => exact .aside (same c rfl)
  have turn : ∀ {c : Option Connection},
      (∀ c', c = some c' → d.connection.Turn c') → d.connection.Turn (d.touch c).connection := by
    intro c steps
    cases c with
    | none => exact .aside (.refl _)
    | some c => exact steps c rfl
  cases move with
  | handleRequests method =>
    refine aside fun c' h => ?_
    unfold Connection.onRequest at h
    split at h
    · simp [Except.toOption] at h
    · obtain rfl := by simpa [Except.toOption] using h
      exact .of_silent rfl rfl rfl rfl rfl rfl rfl
  | handleNotifications method =>
    refine aside fun c' h => ?_
    unfold Connection.onNotification at h
    split at h
    · simp [Except.toOption] at h
    · obtain rfl := by simpa [Except.toOption] using h
      exact .of_silent rfl rfl rfl rfl rfl rfl rfl
  | listen =>
    refine turn fun c' h => ?_
    unfold Connection.listen at h
    split at h
    · simp [Except.toOption] at h
    · rename_i silent
      obtain rfl := by simpa [Except.toOption] using h
      exact .listened (by simpa using silent)
  | request | fire | pass => exact .aside (.refl _)
  | call i =>
    cases here : d.calls[i]? with
    | none => simpa [step, here] using Connection.Turn.aside (.refl _)
    | some call =>
      cases stepped : call.step d.now d.connection with
      | none => simpa [step, here, stepped] using Connection.Turn.aside (.refl _)
      | some result =>
        obtain ⟨c, call'⟩ := result
        obtain ⟨phase, rfl, effect⟩ := Call.step_effect stepped
        simpa [step, here, stepped] using Connection.Turn.aside effect.aside
  | notify n =>
    simp only [step]
    split
    · exact .aside (.refl _)
    · exact .aside (d.connection.aside_tryWrite rfl)
  | read => exact turn fun c' h => Connection.turn_stepRead h
  | handled crashed =>
    refine aside fun c' h => ?_
    obtain rfl := by simpa using h
    have ended : ∀ p : ReadPhase, p.isPlain = true → ∀ n, d.connection.readPhase = .handling n →
        d.connection.Aside { d.connection with readPhase := p } := fun p plain n place =>
      .of_plain rfl rfl rfl rfl rfl rfl (by rw [place]; rfl) plain
    split
    · unfold Connection.crashHandling
      split
      · rename_i place
        exact ended _ rfl _ place
      · exact .refl _
    · unfold Connection.finishHandling
      split
      · rename_i place
        exact ended _ rfl _ place
      · exact .refl _
  | job j => exact turn fun c' h => Connection.turn_stepJob h
  | finishJob j outcome => exact d.connection.turn_finishJob j outcome
  | beginClose | close => simp [Move.isClosing] at other
  | feed | hangUp | reach | stall => exact .aside (.of_silent rfl rfl rfl rfl rfl rfl rfl)

end LanguageClient
