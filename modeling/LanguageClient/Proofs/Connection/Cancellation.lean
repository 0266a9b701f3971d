import LanguageClient.Proofs.Connection.Exchange
import Mathlib.Data.List.Pairwise
/-!
# Requests of the server and their cancellation

The table of incoming requests has the id of each request whose handler has not ended, with the number
of its job; a cancellation looks the id up there.  As long as the requests in flight have different
ids, nobody takes the entry of another one: `Incoming` says that the table has the ids of such jobs
only, and that a job that is not in it any more has been cancelled.

The main result puts this together with the log of the requests and their responses.
-/

namespace LanguageClient

/-- Whether the handler of a job has not ended, or its id is still to be taken out of the table. -/
def Job.isHandled (job : Job) : Bool :=
  match job.phase with
  | .spawned | .running | .returned _ => true
  | .answering _ | .ended => false

theorem Job.isOpen_of_isHandled {job : Job} (handled : job.isHandled = true) : job.isOpen = true := by
  unfold isHandled at handled
  split at handled <;> simp_all [isOpen]

namespace Connection

variable {c c' : Connection}

/-- No two requests in flight have the same id. -/
def Distinct (c : Connection) : Prop :=
  (c.inFlight.map Request.id).Nodup

namespace Distinct

/-- Two open jobs with the same id are the same. -/
theorem job_eq (h : c.Distinct) {i j : Nat} {job job' : Job} (here : c.jobs[i]? = some job)
    (here' : c.jobs[j]? = some job') (open' : job.isOpen = true) (open'' : job'.isOpen = true)
    (same : job.request.id = job'.request.id) : i = j := by
  obtain ⟨short, rfl⟩ := List.getElem?_eq_some_iff.mp here
  obtain ⟨short', rfl⟩ := List.getElem?_eq_some_iff.mp here'
  rw [Distinct, inFlight, List.map_append, List.nodup_append] at h
  have apart := h.2.1
  rw [underWay, List.map_map, List.Nodup, List.pairwise_map, List.pairwise_filter,
    List.pairwise_iff_getElem] at apart
  rcases Nat.lt_trichotomy i j with less | rfl | more
  · exact absurd same (apart i j short short' less open' open'')
  · rfl
  · exact absurd same.symm (apart j i short' short more open'' open')

/-- An open job has another id than the request that the read loop has in hand. -/
theorem held_ne (h : c.Distinct) {request : Request} (held : c.readPhase.request? = some request)
    {j : Nat} {job : Job} (here : c.jobs[j]? = some job) (open' : job.isOpen = true) :
    request.id ≠ job.request.id := by
  rw [Distinct, inFlight, List.map_append, List.nodup_append, held] at h
  refine h.2.2 _ (by simp) _ (List.mem_map_of_mem (List.mem_map_of_mem ?_))
  exact List.mem_filter.mpr ⟨List.mem_of_getElem? here, open'⟩

end Distinct

/-! ## The table of incoming requests -/

/-- The table has the ids of jobs whose handlers have not ended, and every such job is in the table or
    has been cancelled. -/
structure Incoming (c : Connection) : Prop where
  entry : ∀ (id : RequestId) (j : Nat), c.incoming.get? id = some j →
    ∃ job : Job, c.jobs[j]? = some job ∧ job.request.id = id ∧ job.isHandled = true
  known : ∀ (j : Nat) (job : Job), c.jobs[j]? = some job → job.isHandled = true →
    c.incoming.get? job.request.id = some j ∨ job.cancelled = true
  ended : c.readPhase = .ended → c.incoming = []

namespace Incoming

/-- The table stays, and so do the jobs, but that some of them are cancelled. -/
theorem of_jobs (h : Incoming c) (incoming : c'.incoming = c.incoming)
    (ended : c'.readPhase = .ended → c.readPhase = .ended)
    (jobs : ∀ j : Nat, (c'.jobs[j]? = none ∧ c.jobs[j]? = none) ∨ ∃ job job' : Job,
      c.jobs[j]? = some job ∧ c'.jobs[j]? = some job' ∧ job'.request = job.request ∧
        job'.isHandled = job.isHandled ∧ (job.cancelled = true → job'.cancelled = true)) :
    Incoming c' where
  entry := by
    intro id j found
    obtain ⟨job, here, same, handled⟩ := h.entry id j (incoming ▸ found)
    rcases jobs j with ⟨-, none⟩ | ⟨job₁, job', here₁, here', request, handled', -⟩
    · simp [none] at here
    · obtain rfl := Option.some.inj (here.symm.trans here₁)
      exact ⟨job', here', request ▸ same, handled'.trans handled⟩
  known := by
    intro j job' here' handled
    rcases jobs j with ⟨none, -⟩ | ⟨job, job₁, here, here₁, request, handled', cancelled⟩
    · simp [none] at here'
    · obtain rfl := Option.some.inj (here'.symm.trans here₁)
      rw [incoming, request]
      exact (h.known j job here (handled' ▸ handled)).imp id cancelled
  ended := fun place => incoming.trans (h.ended (ended place))

/-- The table and the jobs stay. -/
theorem congr (h : Incoming c) (incoming : c'.incoming = c.incoming) (jobs : c'.jobs = c.jobs)
    (ended : c'.readPhase = .ended → c.readPhase = .ended) : Incoming c' := by
  refine h.of_jobs incoming ended fun j => ?_
  rw [jobs]
  cases here : c.jobs[j]? with
  | none => exact Or.inl ⟨rfl, rfl⟩
  | some job => exact Or.inr ⟨job, job, rfl, rfl, rfl, rfl, id⟩

/-- A job goes on, and its handler has ended as before. -/
theorem set (h : Incoming c) (incoming : c'.incoming = c.incoming)
    (readPhase : c'.readPhase = c.readPhase) {i : Nat} {job : Job} (here : c.jobs[i]? = some job)
    {phase : JobPhase} (jobs : c'.jobs = c.jobs.set i { job with phase })
    (handled : { job with phase }.isHandled = job.isHandled) : Incoming c' := by
  refine h.of_jobs incoming (fun place => readPhase ▸ place) fun j => ?_
  rw [jobs]
  by_cases same : i = j
  · subst same
    have short := (List.getElem?_eq_some_iff.mp here).1
    exact Or.inr ⟨job, { job with phase }, here, by simp [short], rfl, handled, id⟩
  · rw [List.getElem?_set_ne same]
    cases here : c.jobs[j]? with
    | none => exact Or.inl ⟨rfl, rfl⟩
    | some job => exact Or.inr ⟨job, job, rfl, rfl, rfl, rfl, id⟩

/-- The jobs in the table are cancelled, and the table is emptied. -/
theorem release (h : Incoming c) (incoming : c'.incoming = [])
    (jobs : c'.jobs = c.jobs.mapIdx fun j job =>
      if j ∈ c.incoming.values then { job with cancelled := true } else job) : Incoming c' where
  entry := by simp [incoming]
  known := by
    intro j job' here' handled
    rw [jobs, List.getElem?_mapIdx] at here'
    obtain ⟨job, here, rfl⟩ := Option.map_eq_some_iff.mp here'
    by_cases among : j ∈ c.incoming.values
    · exact Or.inr (by simp [among])
    · simp only [among, if_false] at handled ⊢
      refine Or.inr ((h.known j job here handled).resolve_left fun found => ?_)
      exact among (Table.mem_values_of_get? found)
  ended := fun _ => incoming

/-- A request comes into the table with its job. -/
theorem spawn (h : Incoming c) (distinct : c.Distinct) {request : Request}
    (place : c.readPhase = .admitting request) :
    Incoming { c.spawnJob request with readPhase := .reading } where
  entry := by
    intro id j found
    simp only [spawnJob, Table.get?_put] at found
    split at found
    -- the entry is the new job's own
    · rename_i same
      obtain rfl := Option.some.inj found
      exact ⟨{ request }, by simp [spawnJob], same, rfl⟩
    · obtain ⟨job, here, same, handled⟩ := h.entry id j found
      refine ⟨job, ?_, same, handled⟩
      have short := (List.getElem?_eq_some_iff.mp here).1
      simpa [spawnJob, List.getElem?_append_left short] using here
  known := by
    intro j job here handled
    simp only [spawnJob, Table.get?_put, List.getElem?_append] at here ⊢
    split at here
    · -- an older job has another id
      have other := distinct.held_ne (by rw [place]; rfl) here (Job.isOpen_of_isHandled handled)
      rw [if_neg other]
      exact h.known j job here handled
    · rename_i long
      obtain ⟨zero, rfl⟩ : j - c.jobs.length = 0 ∧ ({ request } : Job) = job := by
        simpa [List.getElem?_singleton] using here
      obtain rfl : c.jobs.length = j := by omega
      simp
  ended := by simp

/-- A job whose handler has ended takes its id out of the table. -/
theorem remove (h : Incoming c) (distinct : c.Distinct) {i : Nat} {job : Job}
    (here : c.jobs[i]? = some job) {outcome : HandlerOutcome} (place : job.phase = .returned outcome)
    (response : Response) :
    Incoming { c with
      incoming := c.incoming.erase job.request.id
      jobs := c.jobs.set i { job with phase := .answering response } } where
  entry := by
    intro id j found
    simp only [Table.get?_erase, Option.ite_none_left_eq_some] at found
    obtain ⟨other, found⟩ := found
    obtain ⟨job', here', same, handled⟩ := h.entry id j found
    -- the table has one job for an id, so the other entries have other ids
    have apart : i ≠ j := by
      rintro rfl
      obtain rfl := Option.some.inj (here.symm.trans here')
      exact other same
    exact ⟨job', by rwa [List.getElem?_set_ne apart], same, handled⟩
  known := by
    intro j job' here' handled
    have apart : i ≠ j := by
      rintro rfl
      have short := (List.getElem?_eq_some_iff.mp here).1
      obtain rfl : _ = job' := by simpa [short] using here'
      simp [Job.isHandled] at handled
    rw [List.getElem?_set_ne apart] at here'
    have other : job.request.id ≠ job'.request.id := fun same =>
      apart (distinct.job_eq here here' (Job.isOpen_of_isHandled (by simp [Job.isHandled, place]))
        (Job.isOpen_of_isHandled handled) same)
    rw [Table.get?_erase, if_neg other]
    exact h.known j job' here' handled
  ended := fun ended => by simp [h.ended ended, Table.erase]

/-- Whatever a turn does, the table has the ids of the jobs that are handled. -/
theorem turn (h : Incoming c) (distinct : c.Distinct) (turn : c.Turn c') : Incoming c' := by
  cases turn with
  | aside aside =>
    refine h.congr aside.incoming aside.jobs fun place => ?_
    rcases aside.readPhase with same | ⟨-, plain⟩
    · exact same ▸ place
    · simp [place, ReadPhase.isPlain] at plain
  | admitted request place => exact h.spawn distinct place
  | cancelled id place =>
    refine h.of_jobs rfl (by simp) fun j => ?_
    cases here : c.jobs[j]? with
    -- a place without a job stays one
    | none => exact Or.inl ⟨by simp [here], rfl⟩
    | some job =>
      refine Or.inr ⟨job, if c.incoming.get? id = some j then { job with cancelled := true } else job,
        rfl, by simp [here], ?_⟩
      split
      · exact ⟨rfl, rfl, fun _ => rfl⟩
      · exact ⟨rfl, rfl, fun fired => fired⟩
  | released => exact h.release rfl rfl
  | removed j job outcome here place => exact h.remove distinct here place _
  | started j job here place =>
    exact h.set rfl rfl here rfl (by simp [Job.isHandled, place])
  | returned j job outcome here place =>
    exact h.set rfl rfl here rfl (by simp [Job.isHandled, place])
  | answered j job response here place =>
    exact h.set rfl rfl here rfl (by simp [Job.isHandled, place])
  | routed => exact h.congr rfl rfl fun place => by simp only at place; split at place <;> simp at place
  | listened | took | refused | left | drained => exact h.congr rfl rfl (by simp)

end Incoming

/-- A turn fires the token of a job when the read loop cancels its id, or releases all jobs. -/
theorem Turn.fired (turn : c.Turn c') (h : Incoming c) {j : Nat} {job job' : Job}
    (here : c.jobs[j]? = some job) (here' : c'.jobs[j]? = some job') (before : job.cancelled = false)
    (fired : job'.cancelled = true) :
    c.readPhase = .cancelling job.request.id ∨ c.readPhase = .releasing := by
  -- elsewhere a job keeps its token
  have set : ∀ {i : Nat} {old : Job} {phase : JobPhase}, c.jobs[i]? = some old →
      (c.jobs.set i { old with phase })[j]? = some job' → False := by
    intro i old phase there here'
    by_cases same : i = j
    · subst same
      obtain rfl := Option.some.inj (here.symm.trans there)
      have short := (List.getElem?_eq_some_iff.mp here).1
      obtain rfl : _ = job' := by simpa [short] using here'
      simp [before] at fired
    · rw [List.getElem?_set_ne same] at here'
      obtain rfl := Option.some.inj (here.symm.trans here')
      simp [before] at fired
  have same : ∀ {jobs : List Job}, jobs[j]? = c.jobs[j]? → jobs[j]? = some job' → False := by
    intro jobs same here'
    obtain rfl := Option.some.inj (here.symm.trans (same.symm.trans here'))
    simp [before] at fired
  cases turn with
  | aside aside => exact (same (by rw [aside.jobs]) here').elim
  | admitted request place =>
    have short := (List.getElem?_eq_some_iff.mp here).1
    exact (same (by simp [spawnJob, List.getElem?_append_left short]) here').elim
  | cancelled id place =>
    rw [List.getElem?_mapIdx, here, Option.map_some, Option.some.injEq] at here'
    by_cases found : c.incoming.get? id = some j
    · obtain ⟨job₁, here₁, same, -⟩ := h.entry id j found
      obtain rfl := Option.some.inj (here.symm.trans here₁)
      exact Or.inl (same ▸ place)
    · rw [if_neg found] at here'
      simp [← here', before] at fired
  | released place => exact Or.inr place
  | started i old there place => exact (set there here').elim
  | returned i old outcome there place => exact (set there here').elim
  | removed i old outcome there place => exact (set there here').elim
  | answered i old response there place => exact (set there here').elim
  | listened | took | routed | refused | left | drained => exact (same rfl here').elim

/-! ## Steps that are due -/

end Connection

namespace Channel

variable {name : String} {s s' : Channel}

theorem Change.incoming (change : Change s s') (h : s.connection.Incoming)
    (distinct : s.connection.Distinct) : s'.connection.Incoming := by
  cases change with
  | turned d turn => exact h.turn distinct turn
  | closing d aside => exact h.turn distinct (.aside aside)
  | closed i place place' c here step =>
    obtain ⟨readPhase, -, ⟨jobs, incoming⟩ | ⟨-, rfl⟩⟩ := stepClose_serving step
    · exact h.congr incoming jobs fun ended => readPhase ▸ ended
    · rw [Connection.release_eq]
      exact h.release rfl rfl

/-- A token fires when the read loop cancels its id, or when the connection has ended. -/
theorem Change.fired (change : Change s s') (ending : Ending s) (h : s.connection.Incoming) {j : Nat}
    {job job' : Job} (here : s.connection.jobs[j]? = some job)
    (here' : s'.connection.jobs[j]? = some job') (before : job.cancelled = false)
    (fired : job'.cancelled = true) :
    s.connection.readPhase = .cancelling job.request.id ∨ s.connection.terminated = true := by
  have turned : s.connection.Turn s'.connection →
      s.connection.readPhase = .cancelling job.request.id ∨ s.connection.terminated = true := by
    intro turn
    rcases turn.fired h here here' before fired with place | place
    · exact Or.inl place
    · exact Or.inr (ending.reader (by rw [place]; rfl))
  cases change with
  | turned d turn => exact turned turn
  | closing d aside => exact turned (.aside aside)
  | closed i place place' c there step =>
    obtain ⟨-, -, ⟨jobs, -⟩ | ⟨rfl, -⟩⟩ := stepClose_serving step
    · obtain rfl := Option.some.inj (here.symm.trans (jobs ▸ here'))
      simp [before] at fired
    · exact Or.inr (ending.closers (Or.inr (List.mem_of_getElem? there)))

end Channel

end LanguageClient
