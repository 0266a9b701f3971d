import LanguageClient.Connection.Call
import Mathlib
/-!
# What can happen to a connection

A connection keeps two tables for the requests of the client: `pending`, the numbers that wait for a
response, and `replies`, the responses that were assigned and not fetched.  Each step of anybody
who works on the connection does one of a few things to them.

* A step of a call has an effect listed in `Call.Step`.
* Any other step has an effect listed in `Connection.Effect`: it leaves the tables alone and writes
  nothing but responses (`Steady`), or assigns a response to the request that waits for it
  (`settle`), or assigns one to every request that waits (`drain`).

`Call.step_effect`, `stepRead_effect`, `stepClose_effect` and `steady_stepJob` are the only proofs
that look into the steps.
-/

namespace LanguageClient

namespace Connection

/-! ## Writing -/

/-- Whether a write succeeds. -/
def canWrite (c : Connection) : Bool :=
  c.writable && !c.peerGone

/-- Whether a write succeeds at once. -/
def ready (c : Connection) : Bool :=
  c.canWrite && !c.busy

/-- A write succeeds, or fails by one of two errors. -/
theorem write_cases (c : Connection) (m : Message) :
    (c.canWrite = true ∧ c.write m = .ok { c with sent := c.sent ++ [m] }) ∨
    (c.canWrite = false ∧
      (c.write m = .error .notConnected ∨ c.write m = .error (.system .brokenPipe))) := by
  unfold write canWrite
  cases c.writable <;> cases c.peerGone <;> simp

theorem canWrite_of_write {c c' : Connection} {m : Message} (h : c.write m = .ok c') :
    c.canWrite = true ∧ c' = { c with sent := c.sent ++ [m] } := by
  rcases c.write_cases m with ⟨can, wrote⟩ | ⟨-, failed | failed⟩
  · rw [wrote, Except.ok.injEq] at h
    exact ⟨can, h.symm⟩
  · simp [failed] at h
  · simp [failed] at h

theorem canWrite_eq_false_of_write {c : Connection} {m : Message} {e : ClientError}
    (h : c.write m = .error e) :
    c.canWrite = false ∧ (e = .notConnected ∨ e = .system .brokenPipe) := by
  rcases c.write_cases m with ⟨-, wrote⟩ | ⟨cannot, failed | failed⟩
  · simp [wrote] at h
  · rw [failed, Except.error.injEq] at h
    exact ⟨cannot, Or.inl h.symm⟩
  · rw [failed, Except.error.injEq] at h
    exact ⟨cannot, Or.inr h.symm⟩

theorem tryWrite_cases (c : Connection) (m : Message) :
    (c.canWrite = true ∧ c.tryWrite m = { c with sent := c.sent ++ [m] }) ∨
    (c.canWrite = false ∧ c.tryWrite m = c) := by
  rcases c.write_cases m with ⟨can, wrote⟩ | ⟨cannot, failed | failed⟩
  · exact Or.inl ⟨can, by simp [tryWrite, wrote]⟩
  · exact Or.inr ⟨cannot, by simp [tryWrite, failed]⟩
  · exact Or.inr ⟨cannot, by simp [tryWrite, failed]⟩

/-- An attempt to write adds the message, or nothing. -/
theorem tryWrite_eq (c : Connection) (m : Message) :
    c.tryWrite m = { c with sent := if c.canWrite then c.sent ++ [m] else c.sent } := by
  rcases c.tryWrite_cases m with ⟨can, wrote⟩ | ⟨cannot, failed⟩
  · simp [wrote, can]
  · simp [failed, cannot]

/-! ## Steps that do not concern the requests of the client -/

/-- The tables stay as they are, nothing but responses is written, and a write that failed fails
    again. -/
structure Steady (c c' : Connection) : Prop where
  name : c'.name = c.name
  nextId : c'.nextId = c.nextId
  pending : c'.pending = c.pending
  replies : c'.replies = c.replies
  sent : ∃ answers : List Response, c'.sent = c.sent ++ answers.map .response
  canWrite : c'.canWrite = true → c.canWrite = true

namespace Steady

variable {c c' c'' : Connection}

/-- A step that writes nothing. -/
theorem of_silent (name : c'.name = c.name) (nextId : c'.nextId = c.nextId)
    (pending : c'.pending = c.pending) (replies : c'.replies = c.replies) (sent : c'.sent = c.sent)
    (canWrite : c'.canWrite = true → c.canWrite = true) : Steady c c' :=
  ⟨name, nextId, pending, replies, ⟨[], by simp [sent]⟩, canWrite⟩

theorem refl (c : Connection) : Steady c c :=
  .of_silent rfl rfl rfl rfl rfl id

theorem trans (h : Steady c c') (h' : Steady c' c'') : Steady c c'' where
  name := h'.name.trans h.name
  nextId := h'.nextId.trans h.nextId
  pending := h'.pending.trans h.pending
  replies := h'.replies.trans h.replies
  sent := by
    obtain ⟨answers, wrote⟩ := h.sent
    obtain ⟨more, wroteMore⟩ := h'.sent
    exact ⟨answers ++ more, by simp [wroteMore, wrote]⟩
  canWrite := fun can => h.canWrite (h'.canWrite can)

end Steady

theorem steady_tryWrite (c : Connection) (r : Response) : Steady c (c.tryWrite (.response r)) := by
  rcases c.tryWrite_cases (.response r) with ⟨can, wrote⟩ | ⟨-, failed⟩
  · rw [wrote]
    exact ⟨rfl, rfl, rfl, rfl, ⟨[r], rfl⟩, fun _ => can⟩
  · rw [failed]
    exact .refl c

theorem steady_modifyJob (c : Connection) (j : Nat) (f : Job → Job) : Steady c (c.modifyJob j f) :=
  .of_silent rfl rfl rfl rfl rfl id

theorem steady_release (c : Connection) : Steady c c.release := by
  have cancelled : ∀ (js : List Nat) (c : Connection),
      Steady c (js.foldl (fun c j => c.modifyJob j fun job => { job with cancelled := true }) c) := by
    intro js
    induction js with
    | nil => exact fun c => .refl c
    | cons j js ih => exact fun c => (steady_modifyJob c j _).trans (ih _)
  have all := cancelled c.incoming.values c
  exact ⟨all.name, all.nextId, all.pending, all.replies, all.sent, all.canWrite⟩

theorem steady_cancelIncoming (c : Connection) (id : RequestId) : Steady c (c.cancelIncoming id) := by
  unfold cancelIncoming
  split
  · exact steady_modifyJob c _ _
  · exact .refl c

theorem steady_feed (c : Connection) (octets : List UInt8) : Steady c (c.feed octets) :=
  .of_silent rfl rfl rfl rfl rfl id

theorem steady_hangUp (c : Connection) : Steady c c.hangUp :=
  .of_silent rfl rfl rfl rfl rfl (by simp [hangUp, canWrite])

theorem steady_beginClose (c : Connection) : Steady c c.beginClose :=
  .of_silent rfl rfl rfl rfl rfl id

theorem steady_finishJob (c : Connection) (j : Nat) (outcome : HandlerOutcome) :
    Steady c (c.finishJob j outcome) :=
  steady_modifyJob c j _

theorem steady_finishHandling (c : Connection) : Steady c c.finishHandling := by
  unfold finishHandling
  split
  · exact .of_silent rfl rfl rfl rfl rfl id
  · exact .refl c

theorem steady_crashHandling (c : Connection) : Steady c c.crashHandling := by
  unfold crashHandling
  split
  · exact .of_silent rfl rfl rfl rfl rfl id
  · exact .refl c

theorem steady_stepJob {c c' : Connection} {j : Nat} (h : c.stepJob j = some c') : Steady c c' := by
  unfold stepJob at h
  cases found : c.jobs[j]? with
  | none => simp [found] at h
  | some job =>
    simp only [found, Option.bind_eq_bind, Option.bind_some] at h
    split at h
    · obtain rfl := by simpa using h
      exact steady_modifyJob c j _
    · simp at h
    · simp at h
    · obtain rfl := by simpa using h
      have removed : Steady c { c with incoming := c.incoming.erase job.request.id } :=
        .of_silent rfl rfl rfl rfl rfl id
      exact removed.trans (steady_modifyJob _ j _)
    · split at h
      · simp at h
      · obtain rfl := by simpa using h
        exact (steady_tryWrite c _).trans (steady_modifyJob _ j _)

/-! ## Assigning responses -/

/-- A response is assigned to the request that waits under its number, or changes nothing. -/
theorem settle_cases (c : Connection) (id : RequestId) (r : Response) :
    (∃ k, id.asNumber = some k ∧ k ∈ c.pending ∧
      c.settle id r = { c with pending := c.pending.erase k, replies := c.replies.put k r }) ∨
    ((∀ k, id.asNumber = some k → k ∉ c.pending) ∧ c.settle id r = c) := by
  unfold settle
  cases number : id.asNumber with
  | none => exact Or.inr ⟨by simp, rfl⟩
  | some k =>
    by_cases waits : k ∈ c.pending
    · exact Or.inl ⟨k, rfl, waits, by simp [waits]⟩
    · exact Or.inr ⟨by simpa using waits, by simp [waits]⟩

@[simp] theorem pending_drain (c : Connection) : c.drain.pending = [] := rfl

@[simp] theorem nextId_drain (c : Connection) : c.drain.nextId = c.nextId := rfl

@[simp] theorem sent_drain (c : Connection) : c.drain.sent = c.sent := rfl

theorem name_settle (c : Connection) (id : RequestId) (r : Response) :
    (c.settle id r).name = c.name := by
  rcases c.settle_cases id r with ⟨k, -, -, settled⟩ | ⟨-, settled⟩ <;> rw [settled]

theorem nextId_settle (c : Connection) (id : RequestId) (r : Response) :
    (c.settle id r).nextId = c.nextId := by
  rcases c.settle_cases id r with ⟨k, -, -, settled⟩ | ⟨-, settled⟩ <;> rw [settled]

theorem sent_settle (c : Connection) (id : RequestId) (r : Response) :
    (c.settle id r).sent = c.sent := by
  rcases c.settle_cases id r with ⟨k, -, -, settled⟩ | ⟨-, settled⟩ <;> rw [settled]

/-- At the end of a connection every request that waits has a response that says so. -/
@[simp] theorem get?_replies_drain (c : Connection) (k : Nat) :
    c.drain.replies.get? k =
      if k ∈ c.pending then some (c.terminationResponse k) else c.replies.get? k := by
  have told : ∀ (ids : List Nat) (replies : Table Nat Response),
      (ids.foldl (fun replies id => replies.put id (c.terminationResponse id)) replies).get? k =
        if k ∈ ids then some (c.terminationResponse k) else replies.get? k := by
    intro ids
    induction ids with
    | nil => simp
    | cons id ids ih =>
      intro replies
      rw [List.foldl_cons, ih, Table.get?_put]
      by_cases same : id = k
      · subst same; simp
      · simp [same, Ne.symm same]
  exact told c.pending c.replies

/-! ## All steps but those of calls -/

/-- The effect of a step that is no step of a call. -/
inductive Effect (c : Connection) : Connection → Prop where
  | steady {c' : Connection} (h : Steady c c') : Effect c c'
  | settled {c' : Connection} (id : RequestId) (r : Response)
      (place : c.readPhase = .settling id r) (h : Steady (c.settle id r) c') : Effect c c'
  | drained {c' : Connection} (h : Steady c.drain c') : Effect c c'

namespace Effect

variable {c c' : Connection}

theorem name (effect : Effect c c') : c'.name = c.name := by
  cases effect with
  | steady h => exact h.name
  | settled id r place h => rw [h.name, name_settle]
  | drained h => exact h.name

theorem nextId (effect : Effect c c') : c'.nextId = c.nextId := by
  cases effect with
  | steady h => exact h.nextId
  | settled id r place h => rw [h.nextId, nextId_settle]
  | drained h => exact h.nextId

/-- Nothing but responses is written. -/
theorem sent (effect : Effect c c') :
    ∃ answers : List Response, c'.sent = c.sent ++ answers.map .response := by
  cases effect with
  | steady h => exact h.sent
  | settled id r place h => simpa [sent_settle] using h.sent
  | drained h => simpa using h.sent

end Effect

/-- A step of the read loop that is not about to drain leaves the tables alone, or assigns a
    response. -/
theorem stepRead_cases {c c' : Connection} (h : c.stepRead = some c')
    (other : c.readPhase ≠ .draining) :
    Steady c c' ∨ ∃ id r, c.readPhase = .settling id r ∧ Steady (c.settle id r) c' := by
  -- a step that changes the place of the read loop, or the reader, at most
  have moved : ∀ {c₁ c₂ : Connection}, Steady c c₁ → c₂.name = c₁.name → c₂.nextId = c₁.nextId →
      c₂.pending = c₁.pending → c₂.replies = c₁.replies → c₂.sent = c₁.sent →
      (c₂.canWrite = true ↔ c₁.canWrite = true) →
      Steady c c₂ ∨ ∃ id r, c.readPhase = .settling id r ∧ Steady (c.settle id r) c₂ :=
    fun h hn hi hp hr hs hw => Or.inl (h.trans (.of_silent hn hi hp hr hs hw.mp))
  unfold stepRead at h
  split at h
  · simp at h
  · simp at h
  · simp at h
  · simp at h
  · split at h
    · obtain rfl := by simpa using h
      exact moved (.refl c) rfl rfl rfl rfl rfl Iff.rfl
    · split at h
      · simp at h
      · obtain rfl := by simpa using h
        exact moved (.refl c) rfl rfl rfl rfl rfl Iff.rfl
      · split at h
        · obtain rfl := by simpa using h
          exact moved (.refl c) rfl rfl rfl rfl rfl Iff.rfl
        · obtain rfl := by simpa using h
          exact moved (.refl c) rfl rfl rfl rfl rfl Iff.rfl
      · obtain rfl := by simpa using h
        exact moved (.refl c) rfl rfl rfl rfl rfl Iff.rfl
  · rename_i id r place
    obtain rfl := by simpa using h
    exact Or.inr ⟨id, r, place, .of_silent rfl rfl rfl rfl rfl fun can => can⟩
  · obtain rfl := by simpa using h
    exact moved (.refl c) rfl rfl rfl rfl rfl Iff.rfl
  · split at h
    · simp at h
    · obtain rfl := by simpa using h
      exact moved (steady_tryWrite c _) rfl rfl rfl rfl rfl Iff.rfl
  · obtain rfl := by simpa using h
    exact moved (.refl c) rfl rfl rfl rfl rfl Iff.rfl
  · obtain rfl := by simpa using h
    exact moved (steady_cancelIncoming c _) rfl rfl rfl rfl rfl Iff.rfl
  · obtain rfl := by simpa using h
    exact moved (.refl c) rfl rfl rfl rfl rfl Iff.rfl
  · rename_i draining
    exact absurd draining other
  · obtain rfl := by simpa using h
    exact moved (steady_release c) rfl rfl rfl rfl rfl Iff.rfl

theorem stepRead_effect {c c' : Connection} (h : c.stepRead = some c') : Effect c c' := by
  by_cases place : c.readPhase = .draining
  · obtain rfl := by simpa [stepRead, place] using h
    exact .drained (.of_silent rfl rfl rfl rfl rfl id)
  · rcases stepRead_cases h place with steady | ⟨id, r, settling, settled⟩
    · exact .steady steady
    · exact .settled id r settling settled

/-- A loop that goes on takes a message, or leaves a malformed frame behind. -/
theorem readOn_cases {c c' : Connection} (h : c.readOn = some c') : c.readPhase = .reading ∧
    ((∃ m reader, c.reader.read = .read m reader ∧
        c' = { c with reader, readPhase := phaseFor m }) ∨
      ∃ e reader, c.reader.read = .failed e reader ∧ e.isMalformed = true ∧
        c' = { c with reader }) := by
  unfold readOn at h
  split at h
  · rename_i m reader place read
    exact ⟨place, Or.inl ⟨m, reader, read, (Option.some.inj h).symm⟩⟩
  · rename_i e reader place failed
    split at h
    · rename_i malformed
      exact ⟨place, Or.inr ⟨e, reader, failed, malformed, (Option.some.inj h).symm⟩⟩
    · simp at h
  · simp at h

theorem steady_readOn {c c' : Connection} (h : c.readOn = some c') : Steady c c' := by
  obtain ⟨-, ⟨m, reader, -, rfl⟩ | ⟨e, reader, -, -, rfl⟩⟩ := readOn_cases h
  · exact .of_silent rfl rfl rfl rfl rfl id
  · exact .of_silent rfl rfl rfl rfl rfl id

/-- Who takes the writer away leaves the rest to the read loop, if there is one. -/
theorem stepClose_unwriting {c c' : Connection} {p : Closing}
    (h : c.stepClose .unwriting = some (c', p)) :
    (c.listening = true ∧ c' = { c with writable := false } ∧ p = .ended) ∨
      (c.listening = false ∧ c' = { c with writable := false, terminated := true } ∧
        p = .draining) := by
  simp only [stepClose] at h
  split at h
  · simp at h
  · split at h
    · rename_i listens
      obtain ⟨rfl, rfl⟩ := Prod.mk.inj (Option.some.inj h)
      exact Or.inl ⟨listens, rfl, rfl⟩
    · rename_i silent
      obtain ⟨rfl, rfl⟩ := Prod.mk.inj (Option.some.inj h)
      exact Or.inr ⟨by simpa using silent, rfl, rfl⟩

/-- A step of closing that drains nothing leaves the tables alone. -/
theorem steady_stepClose {c c' : Connection} {p p' : Closing} (h : c.stepClose p = some (c', p'))
    (other : p ≠ .draining) : Steady c c' := by
  cases p with
  | unwriting =>
    rcases stepClose_unwriting h with ⟨-, rfl, -⟩ | ⟨-, rfl, -⟩
    · exact .of_silent rfl rfl rfl rfl rfl (by simp [canWrite])
    · exact .of_silent rfl rfl rfl rfl rfl (by simp [canWrite])
  | draining => exact absurd rfl other
  | releasing =>
    obtain ⟨rfl, rfl⟩ := by simpa [stepClose] using h
    exact steady_release c
  | ended => simp [stepClose] at h

theorem stepClose_effect {c c' : Connection} {p p' : Closing} (h : c.stepClose p = some (c', p')) :
    Effect c c' := by
  by_cases place : p = .draining
  · subst place
    obtain ⟨rfl, rfl⟩ := by simpa [stepClose] using h
    exact .drained (.refl _)
  · exact .steady (steady_stepClose h place)

end Connection

namespace Call

/-! ## Steps of calls -/

/-- The request that a call sends under a number. -/
def request (call : Call) (id : Nat) : Request :=
  { id := .number (UInt64.ofNat id), method := call.method, params := call.params }

/-- The effect of one step of a call: what becomes of the connection, and where the call stands then. -/
inductive Step (now : Nat) (c : Connection) (call : Call) : Connection → CallPhase → Prop where
  | refused (e : ClientError) (fresh : call.phase = .entering)
      (why : c.terminated = true ∧ e = c.terminatedError ∨ call.cancelled = true ∧ e = .cancelled) :
      Step now c call c (.ended (.error e))
  | numbered (fresh : call.phase = .entering) (live : c.terminated = false) :
      Step now c call { c with nextId := c.nextId + 1 } (.admitted c.nextId)
  | turnedAway (id : Nat) (place : call.phase = .admitted id) (past : c.terminated = true) :
      Step now c call c (.ended (.error c.terminatedError))
  | registered (id : Nat) (place : call.phase = .admitted id) (live : c.terminated = false) :
      Step now c call { c with pending := c.pending ++ [id] } (.registered id)
  | written (id : Nat) (c' : Connection) (place : call.phase = .registered id)
      (wrote : c.write (.request (call.request id)) = .ok c') (free : c.busy = false) :
      Step now c call c' (.waiting id (now + TimingSettings.standardMillis call.method))
  | unwritten (id : Nat) (e : ClientError) (place : call.phase = .registered id)
      (failed : c.write (.request (call.request id)) = .error e) (free : c.busy = false) :
      Step now c call c (.withdrawing id e)
  | answered (id deadline : Nat) (response : Response) (place : call.phase = .waiting id deadline)
      (reply : c.replies.get? id = some response) :
      Step now c call { c with replies := c.replies.erase id } (.ended (outcomeOf c response))
  | gaveUp (id deadline : Nat) (e : ClientError) (place : call.phase = .waiting id deadline)
      (noReply : c.replies.get? id = none)
      (why : deadline ≤ now ∧ e = timeoutError c call.method ∨
        call.cancelled = true ∧ e = .cancelled) :
      Step now c call c (.abandoning id e)
  | withdrawn (id : Nat) (e : ClientError) (place : call.phase = .withdrawing id e) :
      Step now c call { c with pending := c.pending.erase id, replies := c.replies.erase id }
        (.ended (.error e))
  | forgotten (id : Nat) (e : ClientError) (place : call.phase = .abandoning id e)
      (waits : id ∈ c.pending) :
      Step now c call { c with pending := c.pending.erase id } (.notifying id e)
  | late (id : Nat) (e : ClientError) (place : call.phase = .abandoning id e)
      (gone : id ∉ c.pending) :
      Step now c call { c with replies := c.replies.erase id } (.ended (.error e))
  | notified (id : Nat) (e : ClientError) (place : call.phase = .notifying id e)
      (free : c.busy = false) :
      Step now c call (c.tryWrite (cancelMessage id)) (.ended (.error e))

theorem step_effect {now : Nat} {c c' : Connection} {call call' : Call}
    (h : call.step now c = some (c', call')) :
    ∃ phase, call' = { call with phase } ∧ Step now c call c' phase := by
  obtain ⟨method, params, cancelled, phase⟩ := call
  cases phase with
  | entering =>
    simp only [step] at h
    split at h
    · rename_i past
      obtain ⟨rfl, rfl⟩ := by simpa using h
      exact ⟨_, rfl, .refused _ rfl (Or.inl ⟨past, rfl⟩)⟩
    · rename_i live
      split at h
      · rename_i fired
        obtain ⟨rfl, rfl⟩ := by simpa using h
        exact ⟨_, rfl, .refused _ rfl (Or.inr ⟨fired, rfl⟩)⟩
      · obtain ⟨rfl, rfl⟩ := by simpa using h
        exact ⟨_, rfl, .numbered rfl (by simpa using live)⟩
  | admitted id =>
    simp only [step] at h
    split at h
    · rename_i past
      obtain ⟨rfl, rfl⟩ := by simpa using h
      exact ⟨_, rfl, .turnedAway id rfl past⟩
    · rename_i live
      obtain ⟨rfl, rfl⟩ := by simpa using h
      exact ⟨_, rfl, .registered id rfl (by simpa using live)⟩
  | registered id =>
    simp only [step] at h
    split at h
    · simp at h
    · rename_i taken
      -- the writer is free, so that the request is written now or fails
      have free : c.busy = false := by simpa using taken
      split at h
      · rename_i wrote
        obtain ⟨rfl, rfl⟩ := by simpa using h
        exact ⟨_, rfl, .written id _ rfl wrote free⟩
      · rename_i failed
        obtain ⟨rfl, rfl⟩ := by simpa using h
        exact ⟨_, rfl, .unwritten id _ rfl failed free⟩
  | waiting id deadline =>
    simp only [step] at h
    split at h
    · rename_i reply
      obtain ⟨rfl, rfl⟩ := by simpa using h
      exact ⟨_, rfl, .answered id deadline _ rfl reply⟩
    · rename_i noReply
      split at h
      · rename_i due
        obtain ⟨rfl, rfl⟩ := by simpa using h
        exact ⟨_, rfl, .gaveUp id deadline _ rfl noReply (Or.inl ⟨due, rfl⟩)⟩
      · split at h
        · rename_i fired
          obtain ⟨rfl, rfl⟩ := by simpa using h
          exact ⟨_, rfl, .gaveUp id deadline _ rfl noReply (Or.inr ⟨fired, rfl⟩)⟩
        · simp at h
  | withdrawing id e =>
    obtain ⟨rfl, rfl⟩ := by simpa [step] using h
    exact ⟨_, rfl, .withdrawn id e rfl⟩
  | abandoning id e =>
    simp only [step] at h
    split at h
    · rename_i waits
      obtain ⟨rfl, rfl⟩ := by simpa using h
      exact ⟨_, rfl, .forgotten id e rfl (by simpa using waits)⟩
    · rename_i gone
      obtain ⟨rfl, rfl⟩ := by simpa using h
      exact ⟨_, rfl, .late id e rfl (by simpa using gone)⟩
  | notifying id e =>
    simp only [step] at h
    split at h
    · simp at h
    · rename_i taken
      obtain ⟨rfl, rfl⟩ := by simpa using h
      exact ⟨_, rfl, .notified id e rfl (by simpa using taken)⟩
  | ended result => simp [step] at h

namespace Step

variable {now : Nat} {c c' : Connection} {call : Call} {phase : CallPhase}

theorem name (step : Step now c call c' phase) : c'.name = c.name := by
  cases step with
  | written id _ place wrote =>
    obtain ⟨-, rfl⟩ := Connection.canWrite_of_write wrote
    rfl
  | notified id =>
    rcases c.tryWrite_cases (cancelMessage id) with ⟨-, wrote⟩ | ⟨-, failed⟩
    · rw [wrote]
    · rw [failed]
  | _ => rfl

theorem busy (step : Step now c call c' phase) : c'.busy = c.busy := by
  cases step with
  | written id _ place wrote =>
    obtain ⟨-, rfl⟩ := Connection.canWrite_of_write wrote
    rfl
  | notified id =>
    rw [Connection.tryWrite_eq]
    rfl
  | _ => rfl

/-- Only the first step of a call uses a number up. -/
theorem nextId_cases (step : Step now c call c' phase) : c'.nextId = c.nextId ∨
    (call.phase = .entering ∧ phase = .admitted c.nextId ∧ c'.nextId = c.nextId + 1) := by
  cases step with
  | numbered fresh => exact Or.inr ⟨fresh, rfl, rfl⟩
  | written id _ place wrote =>
    obtain ⟨-, rfl⟩ := Connection.canWrite_of_write wrote
    exact Or.inl rfl
  | notified id =>
    rcases c.tryWrite_cases (cancelMessage id) with ⟨-, wrote⟩ | ⟨-, failed⟩
    · rw [wrote]
      exact Or.inl rfl
    · rw [failed]
      exact Or.inl rfl
  | _ => exact Or.inl rfl

/-- A call writes its request, and that it is not wanted any more. -/
theorem sent_cases (step : Step now c call c' phase) : c'.sent = c.sent ∨
    (∃ id deadline, call.phase = .registered id ∧ phase = .waiting id deadline ∧
      c'.sent = c.sent ++ [.request (call.request id)]) ∨
    ∃ id e, call.phase = .notifying id e ∧ phase = .ended (.error e) ∧
      c'.sent = c.sent ++ [cancelMessage id] := by
  cases step with
  | written id _ place wrote =>
    obtain ⟨-, rfl⟩ := Connection.canWrite_of_write wrote
    exact Or.inr (Or.inl ⟨id, _, place, rfl, rfl⟩)
  | notified id e place =>
    rcases c.tryWrite_cases (cancelMessage id) with ⟨-, wrote⟩ | ⟨-, failed⟩
    · rw [wrote]
      exact Or.inr (Or.inr ⟨id, e, place, rfl, rfl⟩)
    · rw [failed]
      exact Or.inl rfl
  | _ => exact Or.inl rfl

end Step

end Call

end LanguageClient
