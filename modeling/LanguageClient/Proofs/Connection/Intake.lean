import LanguageClient.Proofs.Connection.Turn
/-!
# The requests that a connection takes in

The read loop passes the requests of the server on in the order in which it reads them: each one that
somebody handles gets a job, and the jobs stand in the order of the requests.  `stepRead_intake` says
what a step of the read loop adds, and `Unasked` what all other steps leave alone: the requests that
are handled, where their jobs stand, and what they were answered.

Whether a request gets a job is decided by its method (`Admits`); the others are refused at once
(`stepRead_answers`).
-/

namespace LanguageClient

namespace Connection

variable {c c' c'' : Connection} {methods : List String}

/-- The requests that are handled or were, each with the place of its job. -/
def posts (c : Connection) : List (Request × JobPhase) :=
  c.jobs.map fun job => (job.request, job.phase)

/-- The request that the read loop has read and not passed on yet. -/
def inHand? (c : Connection) : Option Request :=
  match c.readPhase with
  | .dispatching r | .admitting r => some r
  | _ => none

/-- The request that the read loop takes next, if it goes on reading. -/
def readsOn? (c : Connection) : Option Request :=
  match c.readPhase with
  | .reading =>
    match c.reader.read with
    | .read (.request r) _ => some r
    | _ => none
  | _ => none

/-- The request that the next step of the read loop reads. -/
def reads? (c : Connection) : Option Request :=
  if c.shutdown then none else c.readsOn?

/-- All requests that were taken in, in order. -/
def requests (c : Connection) : List Request :=
  c.posts.map (·.1) ++ c.inHand?.toList

/-- Where the read loop stands with a request that it passes on. -/
def passing? (c : Connection) : Option ReadPhase :=
  match c.readPhase with
  | .dispatching _ | .refusing _ | .admitting _ => some c.readPhase
  | _ => none

/-- The response with which the read loop refuses a request, when it is written at once. -/
def refusal? (c : Connection) : Option (Request × Response) :=
  match c.readPhase with
  | .refusing r =>
    if c.ready then some (r, .failure r.id (.methodNotFound r.method)) else none
  | _ => none

/-- The response with which a job answers its request next, when it is written at once. -/
def reply? (c : Connection) (j : Nat) : Option (Request × Response) :=
  match c.posts[j]? with
  | some (r, .answering response) =>
    if c.ready then some (r, response) else none
  | _ => none

/-- Requests by some methods are handled, as soon as the connection reads, and no others. -/
def Handles (methods : List String) (c : Connection) : Prop :=
  c.readPhase = .idle ∨ c.requestMethods = methods

/-- Requests by some methods get a job, and the others are refused. -/
structure Admits (methods : List String) (c : Connection) : Prop where
  handles : c.Handles methods
  posted : ∀ post ∈ c.posts, post.1.method ∈ methods
  admitted : ∀ r, c.readPhase = .admitting r → r.method ∈ methods
  refused : ∀ r, c.readPhase = .refusing r → r.method ∉ methods

theorem passing?_eq_some {c : Connection} {p : ReadPhase} (passes : c.passing? = some p) :
    c.readPhase = p := by
  unfold passing? at passes
  split at passes <;> simp_all

/-- Admission is about the requests that have a job, and the one that the read loop passes on. -/
theorem Admits.of_passing {c c' : Connection} {methods : List String} (admits : c.Admits methods)
    (handles : c'.Handles methods) (posted : ∀ post ∈ c'.posts, post.1.method ∈ methods)
    (same : c'.passing? = c.passing?) : c'.Admits methods := by
  refine ⟨handles, posted, fun r place => admits.admitted r ?_, fun r place => admits.refused r ?_⟩ <;>
    exact passing?_eq_some (same ▸ by rw [passing?, place])

theorem inHand?_eq_some_iff {c : Connection} {r : Request} : c.inHand? = some r ↔
    c.passing? = some (.dispatching r) ∨ c.passing? = some (.admitting r) := by
  unfold inHand? passing?
  cases c.readPhase <;> simp

theorem inHand?_of_passing? (same : c'.passing? = c.passing?) : c'.inHand? = c.inHand? := by
  apply Option.ext
  intro r
  rw [inHand?_eq_some_iff, inHand?_eq_some_iff, same]

/-! ## What has nothing to do with requests -/

/-- Nothing becomes of the requests of the server. -/
structure Unasked (methods : List String) (c c' : Connection) : Prop where
  posts : c'.posts = c.posts
  passing : c'.passing? = c.passing?
  answers : c'.answers = c.answers
  handles : c.Handles methods → c'.Handles methods

namespace Unasked

theorem of_eq (jobs : c'.jobs = c.jobs) (phase : c'.readPhase = c.readPhase)
    (methods' : c'.requestMethods = c.requestMethods) (answers : c'.answers = c.answers) :
    Unasked methods c c' where
  posts := by rw [Connection.posts, jobs, Connection.posts]
  passing := by rw [passing?, phase, passing?]
  answers := answers
  handles := by
    rw [Handles, Handles, phase, methods']
    exact id

theorem refl (c : Connection) : Unasked methods c c :=
  .of_eq rfl rfl rfl rfl

theorem trans (h : Unasked methods c c') (h' : Unasked methods c' c'') : Unasked methods c c'' where
  posts := h'.posts.trans h.posts
  passing := h'.passing.trans h.passing
  answers := h'.answers.trans h.answers
  handles := fun handles => h'.handles (h.handles handles)

theorem inHand (h : Unasked methods c c') : c'.inHand? = c.inHand? :=
  inHand?_of_passing? h.passing

theorem requests (h : Unasked methods c c') : c'.requests = c.requests := by
  rw [Connection.requests, h.posts, h.inHand, Connection.requests]

theorem admits (h : Unasked methods c c') (admits : c.Admits methods) : c'.Admits methods :=
  admits.of_passing (h.handles admits.handles) (h.posts ▸ admits.posted) h.passing

end Unasked

/-- That requests are cancelled changes nothing about where their jobs stand. -/
theorem posts_cancelled {f : Nat → Job → Prop} [∀ j job, Decidable (f j job)]
    (cancelled : c'.jobs = c.jobs.mapIdx fun j job =>
      if f j job then { job with cancelled := true } else job) : c'.posts = c.posts := by
  refine List.ext_getElem? fun i => ?_
  simp only [posts, cancelled, List.getElem?_map, List.getElem?_mapIdx, Option.map_map]
  congr 1
  funext job
  by_cases hit : f i job <;> simp [hit]

theorem unasked_release (c : Connection) : Unasked methods c c.release := by
  rw [release_eq]
  exact ⟨posts_cancelled rfl, rfl, rfl, id⟩

/-- What is written is no response. -/
theorem answers_concat {m : Message} (other : m.response? = none) :
    { c with sent := c.sent ++ [m] }.answers = c.answers := by
  simp [answers, other]

theorem unasked_tryWrite (c : Connection) {m : Message} (other : m.response? = none) :
    Unasked methods c (c.tryWrite m) :=
  have aside := c.aside_tryWrite other
  .of_eq aside.jobs (by rw [tryWrite_eq]) (by rw [tryWrite_eq]) aside.answers

theorem unasked_beginClose (c : Connection) : Unasked methods c c.beginClose :=
  .of_eq rfl rfl rfl rfl

theorem unasked_finishHandling (c : Connection) : Unasked methods c c.finishHandling := by
  unfold finishHandling
  split
  · rename_i n place
    refine ⟨rfl, by simp [passing?, place], rfl, fun handles => Or.inr (handles.resolve_left ?_)⟩
    simp [place]
  · exact .refl c

theorem unasked_stepClose {p p' : Closing} (h : c.stepClose p = some (c', p')) :
    Unasked methods c c' := by
  cases p with
  | unwriting =>
    rcases stepClose_unwriting h with ⟨-, rfl, -⟩ | ⟨-, rfl, -⟩ <;> exact .of_eq rfl rfl rfl rfl
  | draining =>
    obtain ⟨rfl, rfl⟩ := by simpa [stepClose] using h
    exact .of_eq rfl rfl rfl rfl
  | releasing =>
    obtain ⟨rfl, rfl⟩ := by simpa [stepClose] using h
    exact unasked_release c
  | ended => simp [stepClose] at h

/-! ## The read loop -/

/-- What a step of the read loop that takes a request, or none, does with the requests of the server: it
    goes on without, reads one, refuses the one in its hand because nobody handles it, or starts a job
    for it. -/
inductive Intake (taken : Option Request) (c c' : Connection) : Prop where
  | passed (unread : taken = none) (posts : c'.posts = c.posts) (inHand : c'.inHand? = c.inHand?)
  | read (r : Request) (reads : taken = some r) (free : c.inHand? = none)
      (posts : c'.posts = c.posts) (inHand : c'.inHand? = some r)
  | refused (r : Request) (unread : taken = none) (held : c.inHand? = some r)
      (unserved : c.readPhase ≠ .idle ∧ r.method ∉ c.requestMethods) (posts : c'.posts = c.posts)
      (inHand : c'.inHand? = none)
  | admitted (r : Request) (unread : taken = none) (held : c.inHand? = some r)
      (posts : c'.posts = c.posts ++ [(r, .spawned)]) (inHand : c'.inHand? = none)

/-- A message that was read is in the hand of the read loop if it is a request. -/
theorem inHand?_phaseFor (c : Connection) (m : Message) :
    { c with readPhase := phaseFor m }.inHand? =
      match m with
      | .request r => some r
      | _ => none := by
  cases m with
  | response r =>
    simp only [phaseFor]
    split <;> rfl
  | request r => rfl
  | notification n =>
    simp only [phaseFor]
    split
    · split <;> rfl
    · rfl

/-- A read loop that reads takes the request that a message is. -/
theorem intake_message {m : Message} {reader : FrameReader} (place : c.readPhase = .reading)
    (read : c.reader.read = .read m reader) :
    Intake c.readsOn? c { c with reader, readPhase := phaseFor m } := by
  have free : c.inHand? = none := by simp [inHand?, place]
  have inHand := inHand?_phaseFor { c with reader } m
  cases m with
  | request r => exact .read r (by simp [readsOn?, place, read]) free rfl inHand
  | response r | notification n =>
    exact .passed (by simp [readsOn?, place, read]) rfl (inHand.trans free.symm)

theorem readOn_intake (h : c.readOn = some c') :
    Intake c.readsOn? c c' ∧ c.readPhase ≠ .idle ∧ c'.requestMethods = c.requestMethods := by
  obtain ⟨place, ⟨m, reader, read, rfl⟩ | ⟨e, reader, read, -, rfl⟩⟩ := readOn_cases h
  · exact ⟨intake_message place read, by simp [place], rfl⟩
  · exact ⟨.passed (by simp [readsOn?, place, read]) rfl rfl, by simp [place], rfl⟩

theorem stepRead_intake (h : c.stepRead = some c') :
    Intake c.reads? c c' ∧ c.readPhase ≠ .idle ∧ c'.requestMethods = c.requestMethods := by
  unfold stepRead at h
  split at h
  · simp at h
  · simp at h
  · simp at h
  · simp at h
  · rename_i place
    have free : c.inHand? = none := by simp [inHand?, place]
    have reading : c.readPhase ≠ .idle := by simp [place]
    split at h
    · rename_i shut
      obtain rfl := by simpa using h
      exact ⟨.passed (by simp [reads?, shut]) rfl free.symm, reading, rfl⟩
    · rename_i opened
      -- nobody has asked to end, so both ways of reading come to the same
      have on : c.reads? = c.readsOn? := if_neg opened
      rw [on]
      split at h
      · simp at h
      · rename_i read
        obtain rfl := by simpa using h
        exact ⟨.passed (by simp [readsOn?, place, read]) rfl free.symm, reading, rfl⟩
      · rename_i read
        have unread : c.readsOn? = none := by simp [readsOn?, place, read]
        split at h
        · obtain rfl := by simpa using h
          exact ⟨.passed unread rfl rfl, reading, rfl⟩
        · obtain rfl := by simpa using h
          exact ⟨.passed unread rfl free.symm, reading, rfl⟩
      · rename_i m reader read
        obtain rfl := by simpa using h
        exact ⟨intake_message place read, reading, rfl⟩
  · rename_i id r place
    obtain rfl := by simpa using h
    rcases c.settle_cases id r with ⟨k, -, -, settled⟩ | ⟨-, settled⟩ <;> rw [settled] <;>
      exact ⟨.passed (by simp [reads?, readsOn?, place]) rfl (by simp [inHand?, place]), by simp [place], rfl⟩
  · rename_i r place
    obtain rfl := by simpa using h
    have unread : c.reads? = none := by simp [reads?, readsOn?, place]
    have held : c.inHand? = some r := by simp [inHand?, place]
    refine ⟨?_, by simp [place], rfl⟩
    by_cases handled : r.method ∈ c.requestMethods
    · exact .passed unread rfl (by simp [inHand?, place, handled])
    · exact .refused r unread held (⟨by simp [place], handled⟩) rfl (by simp [inHand?, handled])
  · rename_i r place
    dsimp only at h
    split at h
    · simp at h
    obtain rfl := by simpa using h
    rw [tryWrite_eq]
    exact ⟨.passed (by simp [reads?, readsOn?, place]) rfl (by simp [inHand?, place]), by simp [place], rfl⟩
  · rename_i r place
    obtain rfl := by simpa using h
    refine ⟨.admitted r (by simp [reads?, readsOn?, place]) (by simp [inHand?, place]) ?_ (by simp [inHand?]),
      by simp [place], rfl⟩
    simp [posts, spawnJob]
  · rename_i id place
    obtain rfl := by simpa using h
    rw [cancelIncoming_eq]
    exact ⟨.passed (by simp [reads?, readsOn?, place]) (posts_cancelled rfl) (by simp [inHand?, place]),
      by simp [place], rfl⟩
  · rename_i n place
    obtain rfl := by simpa using h
    refine ⟨.passed (by simp [reads?, readsOn?, place]) rfl ?_, by simp [place], rfl⟩
    by_cases handled : n.method ∈ c.notificationMethods <;> simp [inHand?, place, handled]
  · rename_i place
    obtain rfl := by simpa using h
    exact ⟨.passed (by simp [reads?, readsOn?, place]) rfl (by simp [inHand?, place]), by simp [place], rfl⟩
  · rename_i place
    obtain rfl := by simpa using h
    rw [release_eq]
    exact ⟨.passed (by simp [reads?, readsOn?, place]) (posts_cancelled rfl) (by simp [inHand?, place]),
      by simp [place], rfl⟩

/-- What the read loop is about to do with a request is what it was about to do, or has just been
    decided by the method. -/
theorem Turn.sorted (turn : c.Turn c') {r : Request} :
    (c'.readPhase = .admitting r → c.readPhase = .admitting r ∨
      c.readPhase = .dispatching r ∧ r.method ∈ c.requestMethods) ∧
    (c'.readPhase = .refusing r → c.readPhase = .refusing r ∨
      c.readPhase = .dispatching r ∧ r.method ∉ c.requestMethods) := by
  cases turn with
  | aside aside =>
    rcases aside.readPhase with same | ⟨-, plain⟩
    · exact ⟨fun place => Or.inl (same ▸ place), fun place => Or.inl (same ▸ place)⟩
    · constructor <;> intro place <;> simp [place, ReadPhase.isPlain] at plain
  | routed r' place =>
    by_cases known : r'.method ∈ c.requestMethods
    · simp only [List.contains_iff_mem.mpr known, if_true]
      exact ⟨fun same => Or.inr ⟨by simp_all, by simp_all⟩, by simp⟩
    · simp only [List.contains_iff_mem, known, if_false]
      exact ⟨by simp, fun same => Or.inr ⟨by simp_all, by simp_all⟩⟩
  | started | returned | removed | answered => exact ⟨Or.inl, Or.inl⟩
  | _ => simp

/-- A request gets a job only by a turn that admits it. -/
theorem Turn.admits (turn : c.Turn c') (handles : c'.Handles methods) (admits : c.Admits methods) :
    c'.Admits methods := by
  have handled : ∀ {r}, c.readPhase = .dispatching r → c.requestMethods = methods := fun place =>
    admits.handles.resolve_left (by simp [place])
  refine ⟨handles, fun post among => ?_, fun r place => ?_, fun r place => ?_⟩
  · obtain ⟨job', among', rfl⟩ := List.mem_map.mp among
    obtain ⟨j, here'⟩ := List.mem_iff_getElem?.mp among'
    rcases turn.jobAt here' with ⟨-, place, -⟩ | ⟨job, here, same, -⟩
    · exact admits.admitted _ place
    · have among : (job.request, job.phase) ∈ c.posts :=
        List.mem_map.mpr ⟨job, List.mem_of_getElem? here, rfl⟩
      have known : job.request.method ∈ methods := admits.posted _ among
      exact same ▸ known
  · rcases turn.sorted.1 place with before | ⟨before, known⟩
    · exact admits.admitted r before
    · exact handled before ▸ known
  · rcases turn.sorted.2 place with before | ⟨before, unknown⟩
    · exact admits.refused r before
    · exact handled before ▸ unknown

/-- A connection that reads goes on to admit requests by the same methods. -/
theorem stepRead_admits (h : c.stepRead = some c') (admits : c.Admits methods) : c'.Admits methods := by
  obtain ⟨-, reading, same⟩ := stepRead_intake h
  exact (turn_stepRead h).admits (Or.inr (same.trans (admits.handles.resolve_left reading))) admits

theorem readOn_admits (h : c.readOn = some c') (admits : c.Admits methods) : c'.Admits methods := by
  obtain ⟨-, reading, same⟩ := readOn_intake h
  exact (turn_readOn h).admits (Or.inr (same.trans (admits.handles.resolve_left reading))) admits

theorem readOn_answers (h : c.readOn = some c') : c'.answers = c.answers := by
  obtain ⟨-, ⟨m, reader, -, rfl⟩ | ⟨e, reader, -, -, rfl⟩⟩ := readOn_cases h <;> rfl

/-- The read loop writes nothing but that a request is refused. -/
theorem stepRead_answers (h : c.stepRead = some c') :
    c'.answers = c.answers ++ (c.refusal?.map (·.2)).toList := by
  by_cases refusing : ∃ r, c.readPhase = .refusing r
  · obtain ⟨r, place⟩ := refusing
    simp only [stepRead, place] at h
    split at h
    · simp at h
    rename_i free
    obtain rfl := by simpa using h
    rw [tryWrite_eq]
    by_cases can : c.canWrite <;> simp [answers, refusal?, place, ready, can, free, Message.response?]
  -- all other steps of the loop are silent
  · have silent : c.refusal? = none := by
      unfold refusal?
      split
      · rename_i r place
        exact absurd ⟨r, place⟩ refusing
      · rfl
    have same : c'.sent = c.sent := by
      unfold stepRead at h
      split at h <;> try simp at h
      · split at h
        · exact (Option.some.inj h) ▸ rfl
        · split at h <;> try simp at h
          · exact h ▸ rfl
          · split at h <;> exact (Option.some.inj h) ▸ rfl
          · exact h ▸ rfl
      · exact h ▸ c.sent_settle _ _
      · exact h ▸ rfl
      · rename_i r place
        exact absurd ⟨r, place⟩ refusing
      · exact h ▸ rfl
      · exact h ▸ by rw [cancelIncoming_eq]
      · exact h ▸ rfl
      · exact h ▸ rfl
      · exact h ▸ by rw [release_eq]
    simp [answers, same, silent]

/-- A step of the read loop adds what it reads to what was taken in; what it refuses is by no method that
    is handled. -/
theorem Intake.requests {β : Type} {f : Request → Option β} {taken : Option Request}
    (intake : Intake taken c c') (admits : c.Admits methods)
    (only : ∀ r, (f r).isSome → r.method ∈ methods) :
    c'.requests.filterMap f = c.requests.filterMap f ++ (taken.bind f).toList := by
  cases intake with
  | passed unread posts inHand => simp [Connection.requests, posts, inHand, unread]
  | read r reads free posts inHand =>
    cases wish : f r <;> simp [Connection.requests, posts, inHand, reads, free, wish]
  | refused r unread held unserved posts inHand =>
    have unwanted : f r = none := Option.not_isSome_iff_eq_none.mp fun wish =>
      unserved.2 (admits.handles.resolve_left unserved.1 ▸ only r wish)
    simp [Connection.requests, posts, inHand, unread, held, unwanted]
  | admitted r unread held posts inHand => simp [Connection.requests, posts, inHand, unread, held]

/-! ## Jobs -/

/-- Where the job for a request goes, other than by its handler. -/
inductive Advances (r : Request) : JobPhase → JobPhase → Prop where
  | begun : Advances r .spawned .running
  | returned (outcome : HandlerOutcome) :
      Advances r (.returned outcome) (.answering (answerFor r outcome))
  | answered (response : Response) : Advances r (.answering response) .ended

/-- The job of one request goes on, and nothing else becomes of the requests of the server. -/
structure Posted (methods : List String) (c : Connection) (j : Nat) (p : JobPhase) (c' : Connection) :
    Prop where
  posts : c'.posts = c.posts.modify j fun post => (post.1, p)
  passing : c'.passing? = c.passing?
  handles : c.Handles methods → c'.Handles methods

theorem posted_modifyJob (c : Connection) (j : Nat) {p : JobPhase} {f : Job → Job}
    (goes : ∀ job, c.jobs[j]? = some job → f job = { job with phase := p }) :
    Posted methods c j p (c.modifyJob j f) where
  posts := by
    refine List.ext_getElem? fun i => ?_
    simp only [posts, modifyJob, List.getElem?_map, List.getElem?_modify, Option.map_eq_map,
      Option.map_map]
    by_cases same : j = i
    · subst same
      cases here : c.jobs[j]? with
      | none => rfl
      | some job => simp [goes job here]
    · simp only [if_neg same]
      rfl
  passing := rfl
  handles := id

namespace Posted

variable {j : Nat} {p : JobPhase}

theorem requests_posts (posted : Posted methods c j p c') :
    c'.posts.map (·.1) = c.posts.map (·.1) := by
  rw [posted.posts]
  refine List.ext_getElem? fun i => ?_
  simp only [List.getElem?_map, List.getElem?_modify, Option.map_eq_map, Option.map_map]
  congr 1
  funext post
  by_cases here : j = i <;> simp [here]

theorem requests (posted : Posted methods c j p c') : c'.requests = c.requests := by
  rw [Connection.requests, posted.requests_posts, inHand?_of_passing? posted.passing,
    Connection.requests]

theorem admits (posted : Posted methods c j p c') (admits : c.Admits methods) : c'.Admits methods := by
  refine admits.of_passing (posted.handles admits.handles) (fun post among => ?_) posted.passing
  have named : post.1 ∈ c.posts.map (·.1) :=
    posted.requests_posts ▸ List.mem_map.mpr ⟨post, among, rfl⟩
  obtain ⟨post', old, same⟩ := List.mem_map.mp named
  exact same ▸ admits.posted post' old

end Posted

/-- A job begins, or goes on with the answer after its handler has ended. -/
theorem stepJob_posted {j : Nat} (h : c.stepJob j = some c') : ∃ r p p', c.posts[j]? = some (r, p) ∧
    Posted methods c j p' c' ∧ Advances r p p' ∧
    c'.answers = c.answers ++ ((c.reply? j).map (·.2)).toList := by
  unfold stepJob at h
  cases here : c.jobs[j]? with
  | none => simp [here] at h
  | some job =>
    simp only [here, Option.bind_eq_bind, Option.bind_some] at h
    have there : c.posts[j]? = some (job.request, job.phase) := by simp [posts, here]
    split at h
    · rename_i place
      obtain rfl := by simpa using h
      rw [place] at there
      exact ⟨_, _, .running, there, c.posted_modifyJob j fun _ _ => rfl, .begun, by
        simp [reply?, there, answers, modifyJob]⟩
    · simp at h
    · simp at h
    · rename_i outcome place
      obtain rfl := by simpa using h
      rw [place] at there
      let removed : Connection := { c with incoming := c.incoming.erase job.request.id }
      -- the id leaves the table before the answer is written
      have posted : Posted methods removed j (.answering (answerFor job.request outcome)) _ :=
        removed.posted_modifyJob j fun _ _ => rfl
      exact ⟨_, _, _, there, ⟨posted.posts, posted.passing, posted.handles⟩, .returned outcome, by
        simp [reply?, there, answers, modifyJob]⟩
    · rename_i response place
      split at h
      · simp at h
      rename_i free
      obtain rfl := by simpa using h
      rw [place] at there
      rw [tryWrite_eq]
      let wrote : Connection :=
        { c with sent := if c.canWrite then c.sent ++ [.response response] else c.sent }
      have posted : Posted methods wrote j .ended _ := wrote.posted_modifyJob j fun _ _ => rfl
      refine ⟨_, _, _, there, ⟨posted.posts, posted.passing, posted.handles⟩, .answered response, ?_⟩
      by_cases can : c.canWrite <;>
        simp [reply?, there, answers, modifyJob, ready, can, free, Message.response?]

/-- A handler that ends gives its outcome to a job that runs. -/
theorem finishJob_posted {j : Nat} {r : Request} (running : c.posts[j]? = some (r, .running))
    (outcome : HandlerOutcome) : Posted methods c j (.returned outcome) (c.finishJob j outcome) := by
  refine c.posted_modifyJob j fun job here => ?_
  have place : job.phase = .running := by
    rw [posts, List.getElem?_map, here] at running
    exact congrArg Prod.snd (Option.some.inj running)
  simp [place]

end Connection

/-- A call has no part in the requests of the server, nor in their jobs. -/
theorem Call.Step.unasked {now : Nat} {c c' : Connection} {call : Call} {phase : CallPhase}
    {methods : List String} (step : Step now c call c' phase) : c.Unasked methods c' := by
  cases step with
  | written id _ place wrote =>
    obtain ⟨-, rfl⟩ := Connection.canWrite_of_write wrote
    exact .of_eq rfl rfl rfl (Connection.answers_concat rfl)
  | notified id => exact c.unasked_tryWrite rfl
  | _ => exact .of_eq rfl rfl rfl rfl

end LanguageClient
