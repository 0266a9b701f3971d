import LanguageClient.Proofs.Connection.Channel
import Mathlib.Data.List.Perm.Basic
/-!
# Requests of the server and their responses

A request of the server is in the hand of the read loop until it is refused or has a job, and the job
has it until it answers.  `inFlight` lists the requests that are so far; a request comes into the list
when the read loop takes it, and leaves it with a response (`Turn.inFlight_cases`).

`Exchanges` says the same of a whole run: the requests that were taken, each with its response if it
has one, are what was written and what is in flight.  Any number of requests may be in flight, and
the same id may come again, so requests are counted and not looked up.
-/

namespace LanguageClient

/-- The request of the server that the read loop has in hand. -/
def ReadPhase.request? : ReadPhase → Option Request
  | .dispatching request | .refusing request | .admitting request => some request
  | _ => none

theorem ReadPhase.request?_of_isPlain {p : ReadPhase} (plain : p.isPlain = true) :
    p.request? = none := by
  cases p <;> simp_all [isPlain, request?]

/-- Whether a job has its request still to answer. -/
def Job.isOpen (job : Job) : Bool :=
  job.phase != .ended

namespace Connection

variable {c c' : Connection}

/-- The requests of jobs that are still to be answered. -/
def underWay (jobs : List Job) : List Request :=
  (jobs.filter Job.isOpen).map Job.request

/-- The requests of the server that were taken and are still to be answered. -/
def inFlight (c : Connection) : List Request :=
  c.readPhase.request?.toList ++ underWay c.jobs

/-- The request of the server that the read loop takes with a move to `c'`. -/
def taken (c c' : Connection) : List Request :=
  if c.readPhase = .reading then c'.readPhase.request?.toList else []

/-- The response to a request is about to be written. -/
def Answers (c : Connection) (request : Request) (response : Response) : Prop :=
  c.readPhase = .refusing request ∧
      response = .failure request.id (.methodNotFound request.method) ∨
    ∃ (j : Nat) (job : Job),
      c.jobs[j]? = some job ∧ job.request = request ∧ job.phase = .answering response

/-! ## What a turn does to the requests in flight -/

theorem underWay_append (jobs more : List Job) :
    underWay (jobs ++ more) = underWay jobs ++ underWay more := by
  simp [underWay]

theorem underWay_cons {job : Job} (jobs : List Job) :
    underWay (job :: jobs) = if job.phase = .ended then underWay jobs
      else job.request :: underWay jobs := by
  by_cases ended : job.phase = .ended
  · rw [if_pos ended, underWay, List.filter_cons_of_neg (by simp [Job.isOpen, ended]), underWay]
  · rw [if_neg ended, underWay, List.filter_cons_of_pos (by simpa [Job.isOpen] using ended),
      List.map_cons, underWay]

/-- A job that moves on and stays open keeps its request under way. -/
theorem underWay_set_open {jobs : List Job} {j : Nat} {job : Job} (here : jobs[j]? = some job)
    {phase : JobPhase} (open' : job.phase ≠ .ended) (open'' : phase ≠ .ended) :
    underWay (jobs.set j { job with phase }) = underWay jobs := by
  obtain ⟨short, rfl⟩ := List.getElem?_eq_some_iff.mp here
  obtain ⟨before, after, split, -, set⟩ := List.exists_of_set short
  rw [set, underWay_append, underWay_cons, if_neg open'']
  conv_rhs => rw [split, underWay_append, underWay_cons, if_neg open']

/-- A job that ends takes its request with it. -/
theorem underWay_set_ended {jobs : List Job} {j : Nat} {job : Job} (here : jobs[j]? = some job)
    (open' : job.phase ≠ .ended) :
    (underWay jobs).Perm (job.request :: underWay (jobs.set j { job with phase := .ended })) := by
  obtain ⟨short, rfl⟩ := List.getElem?_eq_some_iff.mp here
  obtain ⟨before, after, split, -, set⟩ := List.exists_of_set short
  rw [set, underWay_append, underWay_cons, if_pos rfl]
  conv_lhs => rw [split, underWay_append, underWay_cons, if_neg open']
  exact List.perm_middle

/-- Cancelling jobs leaves their requests under way. -/
theorem underWay_cancelled {jobs : List Job} {f : Nat → Job → Prop} [∀ j job, Decidable (f j job)] :
    underWay (jobs.mapIdx fun j job => if f j job then { job with cancelled := true } else job) =
      underWay jobs := by
  induction jobs using List.reverseRecOn with
  | nil => rfl
  | append_singleton jobs job ih =>
    rw [List.mapIdx_append, underWay_append, underWay_append, ih]
    simp only [List.mapIdx_cons, List.mapIdx_nil, underWay_cons]
    split <;> rfl

/-- A new job has its request under way. -/
theorem underWay_concat (jobs : List Job) (request : Request) :
    underWay (jobs ++ [({ request } : Job)]) = underWay jobs ++ [request] := by
  rw [underWay_append, underWay_cons, if_neg (by simp)]
  rfl

/-- What a turn does to the requests in flight, as long as the writer is open: nothing; or the read
    loop takes one; or one is answered. -/
inductive Progress (c c' : Connection) : Prop where
  | kept (taken : c.taken c' = []) (inFlight : c'.inFlight.Perm c.inFlight)
      (answers : c'.answers = c.answers)
  | took (request : Request) (taken : c.taken c' = [request])
      (inFlight : c'.inFlight.Perm (request :: c.inFlight)) (answers : c'.answers = c.answers)
  | answered (request : Request) (response : Response) (taken : c.taken c' = [])
      (why : c.Answers request response) (inFlight : c.inFlight.Perm (request :: c'.inFlight))
      (answers : c'.answers = c.answers ++ [response])

/-- A read loop that holds what it held takes nothing. -/
theorem taken_eq_nil (held : c'.readPhase.request? = c.readPhase.request?) : c.taken c' = [] := by
  unfold taken
  split
  · rename_i place
    rw [held, place]
    rfl
  · rfl

theorem Aside.progress (h : Aside c c') : Progress c c' := by
  have held : c'.readPhase.request? = c.readPhase.request? := by
    rcases h.readPhase with same | ⟨plain, plain'⟩
    · rw [same]
    · rw [ReadPhase.request?_of_isPlain plain, ReadPhase.request?_of_isPlain plain']
  refine .kept (taken_eq_nil held) ?_ h.answers
  rw [inFlight, inFlight, held, h.jobs]

/-- The read loop stays where it is, and no request is answered. -/
theorem Progress.of_readPhase (readPhase : c'.readPhase = c.readPhase)
    (jobs : underWay c'.jobs = underWay c.jobs) (answers : c'.answers = c.answers) :
    Progress c c' := by
  refine .kept (taken_eq_nil (by rw [readPhase])) ?_ answers
  rw [inFlight, inFlight, jobs, readPhase]

theorem Turn.progress (turn : c.Turn c') (can : c.canWrite = true)
    (silent : c.listening = false → c.readPhase = .idle) : Progress c c' := by
  cases turn with
  | aside h => exact h.progress
  | listened quiet =>
    refine .kept (by simp [taken, silent quiet]) ?_ rfl
    simp [inFlight, silent quiet, ReadPhase.request?]
  | took request reader place =>
    exact .took request (by simp [taken, place, ReadPhase.request?])
      (by simp [inFlight, place, ReadPhase.request?]) rfl
  | routed request place =>
    refine .kept (by simp [taken, place]) ?_ rfl
    simp only [inFlight, place]
    split <;> simp [ReadPhase.request?]
  | refused request place =>
    refine .answered request (.failure request.id (.methodNotFound request.method))
      (by simp [taken, place]) (Or.inl ⟨place, rfl⟩) ?_ ?_
    · simp [inFlight, place, ReadPhase.request?]
    · simp [Connection.answers, can, Message.response?]
  | admitted request place =>
    refine .kept (by simp [taken, place]) ?_ rfl
    simp [inFlight, place, ReadPhase.request?, spawnJob, underWay_concat]
  | cancelled id place =>
    refine .kept (by simp [taken, place]) ?_ rfl
    rw [inFlight, inFlight, underWay_cancelled, place]
    rfl
  | left reader place =>
    exact .kept (by simp [taken, place, ReadPhase.request?])
      (by simp [inFlight, place, ReadPhase.request?]) rfl
  | drained place =>
    exact .kept (by simp [taken, place]) (by simp [inFlight, place, ReadPhase.request?, drain]) rfl
  | released place =>
    refine .kept (by simp [taken, place]) ?_ rfl
    rw [inFlight, inFlight, underWay_cancelled, place]
    rfl
  | started j job here place | returned j job outcome here place | removed j job outcome here place =>
    exact .of_readPhase rfl (underWay_set_open here (by simp [place]) (by simp)) rfl
  | answered j job response here place =>
    -- the answer leaves the jobs under way and enters the answers
    refine .answered job.request response (taken_eq_nil rfl) (Or.inr ⟨j, job, here, rfl, place⟩) ?_ ?_
    · exact ((underWay_set_ended here (by simp [place])).append_left _).trans List.perm_middle
    · simp [Connection.answers, can, Message.response?]

/-- A read loop that refuses a request has just found no handler, or refused it before. -/
theorem Turn.refusing (turn : c.Turn c') {request : Request}
    (place' : c'.readPhase = .refusing request) :
    c.readPhase = .refusing request ∨
      c.readPhase = .dispatching request ∧ request.method ∉ c.requestMethods := by
  cases turn with
  | aside h =>
    rcases h.readPhase with same | ⟨-, plain⟩
    · exact Or.inl (same ▸ place')
    · simp [place', ReadPhase.isPlain] at plain
  | routed taken place =>
    simp only at place'
    split at place'
    · simp at place'
    · rename_i unhandled
      obtain rfl := ReadPhase.refusing.inj place'
      exact Or.inr ⟨place, by simpa using unhandled⟩
  | started | returned | removed | answered => exact Or.inl place'
  | _ => simp at place'

end Connection

/-! ## The requests of a run -/

/-- The requests of a log that have no response yet. -/
def unanswered (log : List (Request × Option Response)) : List Request :=
  (log.filter (·.2.isNone)).map Prod.fst

/-- A log of the requests that were taken, in their order and each with its response if it has one.
    The responses are what was written, the other requests are those in flight, and each response is
    one that its request is met with. -/
structure Exchanges (taken inFlight : List Request) (answers : List Response)
    (met : Request → Response → Prop) (log : List (Request × Option Response)) : Prop where
  taken : log.map Prod.fst = taken
  inFlight : (unanswered log).Perm inFlight
  answers : (log.filterMap Prod.snd).Perm answers
  met : ∀ request response, (request, some response) ∈ log → met request response

namespace Exchanges

variable {taken inFlight : List Request} {answers : List Response}
  {met : Request → Response → Prop} {log : List (Request × Option Response)}

theorem nil : Exchanges [] [] [] met [] :=
  ⟨rfl, .nil, .nil, by simp⟩

theorem mono (h : Exchanges taken inFlight answers met log) {met' : Request → Response → Prop}
    (more : ∀ request response, met request response → met' request response)
    {inFlight' : List Request} (same : inFlight'.Perm inFlight) :
    Exchanges taken inFlight' answers met' log :=
  ⟨h.taken, h.inFlight.trans same.symm, h.answers, fun q r among => more q r (h.met q r among)⟩

/-- A request is taken. -/
theorem take (h : Exchanges taken inFlight answers met log) {request : Request}
    {inFlight' : List Request} (more : inFlight'.Perm (request :: inFlight)) :
    Exchanges (taken ++ [request]) inFlight' answers met (log ++ [(request, none)]) where
  taken := by simp [h.taken]
  inFlight := by
    have concat : unanswered (log ++ [(request, none)]) = unanswered log ++ [request] := by
      simp [unanswered]
    rw [concat]
    exact (List.perm_append_singleton request _).trans ((h.inFlight.cons request).trans more.symm)
  answers := by simpa using h.answers
  met := by
    intro q r among
    exact h.met q r (by simpa using among)

/-- A request that is in flight is answered. -/
theorem answer (h : Exchanges taken inFlight answers met log) {request : Request}
    {inFlight' : List Request} (less : inFlight.Perm (request :: inFlight')) {response : Response}
    (meets : met request response) :
    ∃ log', Exchanges taken inFlight' (answers ++ [response]) met log' := by
  have open' : request ∈ unanswered log := (h.inFlight.trans less).mem_iff.mpr (by simp)
  have among : (request, none) ∈ log := by simpa [unanswered] using open'
  obtain ⟨before, after, rfl⟩ := List.append_of_mem among
  refine ⟨before ++ (request, some response) :: after, ?_, ?_, ?_, ?_⟩
  · simpa using h.taken
  · have split : (request :: unanswered (before ++ (request, some response) :: after)).Perm
        (request :: inFlight') := by
      refine List.Perm.trans ?_ (h.inFlight.trans less)
      simp [unanswered, List.perm_middle.symm]
    exact (List.perm_cons request).mp split
  · refine List.Perm.trans ?_ (h.answers.append_right [response])
    have front : ((before ++ (request, some response) :: after).filterMap Prod.snd) =
        before.filterMap Prod.snd ++ response :: after.filterMap Prod.snd := by simp
    rw [front]
    refine List.perm_middle.trans ((List.perm_append_singleton response _).symm.trans ?_)
    simp
  · intro q r inLog
    rcases List.mem_append.mp inLog with inLog | inLog
    · exact h.met q r (List.mem_append_left _ inLog)
    · rcases List.mem_cons.mp inLog with same | inLog
      · obtain ⟨rfl, rfl⟩ : q = request ∧ r = response := by simpa using same
        exact meets
      · exact h.met q r (List.mem_append_right _ (List.mem_cons_of_mem _ inLog))

end Exchanges

/-- A response error tells an error by its code and its message; what a server has reported is passed
    on as it is. -/
def ClientError.ToldBy (e : ClientError) (error : ResponseError) : Prop :=
  error.code = e.code ∧
    match e with
    | .server reported => error = reported
    | e => error.message = e.message ∧ error.data = none

theorem ClientError.toldBy_toResponseError (e : ClientError) : e.ToldBy e.toResponseError := by
  cases e <;> simp [ToldBy, toResponseError, code]

namespace Channel

variable {name : String} {moves : List Move} {s s' : Channel}

/-- The handler of a request has ended with an outcome. -/
def HandlerEnded (name : String) (moves : List Move) (request : Request) (outcome : HandlerOutcome) :
    Prop :=
  ∃ j : Nat, (machine name).Once moves fun s => ∃ job : Job, s.connection.jobs[j]? = some job ∧
    job.request = request ∧ job.phase = .returned outcome

/-- The read loop has found no handler for a request. -/
def Unhandled (name : String) (moves : List Move) (request : Request) : Prop :=
  (machine name).Once moves fun s => s.connection.readPhase = .dispatching request ∧
    request.method ∉ s.connection.requestMethods

/-- The response that a request is met with: the value of its handler, the error of its handler, one
    that says that the handler has crashed, or one that says that there is no handler. -/
inductive Met (name : String) (moves : List Move) (request : Request) : Response → Prop where
  | value (v : Json) (ended : HandlerEnded name moves request (.value v)) :
      Met name moves request (.success request.id v)
  | failed (e : ClientError) (error : ResponseError)
      (ended : HandlerEnded name moves request (.failed e)) (told : e.ToldBy error) :
      Met name moves request (.failure request.id error)
  | crashed (ended : HandlerEnded name moves request .crashed) :
      Met name moves request (.failure request.id
        { code := ErrorCode.internalError
          message := "Request handler for " ++ request.method ++ " failed" })
  | refused (nobody : Unhandled name moves request) :
      Met name moves request (.failure request.id
        { code := ErrorCode.methodNotFound, message := "Method not found: " ++ request.method })

theorem Met.append {request : Request} {response : Response} (h : Met name moves request response)
    (more : List Move) : Met name (moves ++ more) request response := by
  have later : ∀ {outcome}, HandlerEnded name moves request outcome →
      HandlerEnded name (moves ++ more) request outcome := fun ⟨j, once⟩ => ⟨j, once.append more⟩
  cases h with
  | value v ended => exact .value v (later ended)
  | failed e error ended told => exact .failed e error (later ended) told
  | crashed ended => exact .crashed (later ended)
  | refused nobody => exact .refused (Machine.Once.append nobody more)

/-- The answer of a job is what its handler has come to. -/
theorem HandlerEnded.met {request : Request} {outcome : HandlerOutcome}
    (ended : HandlerEnded name moves request outcome) :
    Met name moves request (Connection.answerFor request outcome) := by
  cases outcome with
  | value v => exact .value v ended
  | failed e => exact .failed e _ ended e.toldBy_toResponseError
  | crashed => exact .crashed ended

/-- Whoever is about to write a response has a reason for it. -/
structure Reasons (name : String) (moves : List Move) (s : Channel) : Prop where
  refusing : ∀ request, s.connection.readPhase = .refusing request → Unhandled name moves request
  answering : ∀ (j : Nat) (job : Job) response, s.connection.jobs[j]? = some job →
    job.phase = .answering response → Met name moves job.request response

theorem Reasons.change (h : Reasons name moves s) {move : Move}
    (now : (machine name).after moves = s) (change : Change s s') :
    Reasons name (moves ++ [move]) s' where
  refusing := by
    intro request place
    have cases : s.connection.readPhase = .refusing request ∨
        s.connection.readPhase = .dispatching request ∧
          request.method ∉ s.connection.requestMethods := by
      cases change with
      | turned d turn => exact turn.refusing place
      | closing d aside => exact (Connection.Turn.aside aside).refusing place
      | closed i closing closing' c here step => exact Or.inl ((stepClose_serving step).1 ▸ place)
    rcases cases with before | unhandled
    · exact (h.refusing request before).append [move]
    · exact (Machine.Once.now (now ▸ unhandled)).append [move]
  answering := by
    intro j job' response here' place
    rcases change.jobAt here' with ⟨-, -, fresh⟩ | ⟨job, here, request, moved⟩
    · simp [fresh] at place
    · rw [request]
      rcases moved.answering place with before | ⟨outcome, before, rfl⟩
      · exact (h.answering j job response here before).append [move]
      · have ended : HandlerEnded name moves job.request outcome :=
          ⟨j, Machine.Once.now (now ▸ ⟨job, here, rfl, before⟩)⟩
        exact ended.met.append [move]

/-- Who answers a request has a reason to. -/
theorem Reasons.met (h : Reasons name moves s) {request : Request} {response : Response}
    (answers : s.connection.Answers request response) : Met name moves request response := by
  rcases answers with ⟨place, rfl⟩ | ⟨j, job, here, rfl, place⟩
  · exact .refused (h.refusing request place)
  · exact h.answering j job response here place

/-- What a move does to the requests in flight, as long as the writer is open. -/
theorem Change.progress (change : Change s s') (ending : Ending s) (can : s.connection.canWrite = true) :
    s.connection.Progress s'.connection := by
  cases change with
  | turned d turn => exact turn.progress can ending.silent
  | closing d aside => exact aside.progress
  | closed i closing closing' c here step =>
    obtain ⟨readPhase, answers, jobs⟩ := stepClose_serving step
    refine .of_readPhase readPhase ?_ answers
    rcases jobs with ⟨same, -⟩ | ⟨-, rfl⟩
    · exact congrArg Connection.underWay same
    · rw [Connection.release_eq, Connection.underWay_cancelled]

end Channel

end LanguageClient
