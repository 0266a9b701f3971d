import LanguageClient.Proofs.Session.Teardown
import LanguageClient.Proofs.Session.Writing
/-!
# Features that a server may want

Before a document is saved or laid out a server may want to be told of it or to be asked for edits.
It says so in the handshake, or registers for documents later.

`Feature.Goes` says what a step of such a call can do, by the `Stage` that the call has reached: it
looks whether the document is open, then at the capabilities, asks the host for the language of the
document, looks at the registry, and then writes its message or leaves it.
-/

namespace LanguageClient

/-- Something that a server may want before a document is saved or laid out. -/
inductive Feature where
  /-- To be told that the document is about to be saved. -/
  | warning (uri : String) (reason : SaveReason)
  /-- To be asked for edits. -/
  | question (q : EditQuery)

namespace Feature

def uri : Feature → String
  | warning uri _ => uri
  | question q => q.uri

/-- The method of the message, under which a server registers. -/
def method : Feature → String
  | warning .. => "textDocument/willSave"
  | question q => q.method

/-- Whether capabilities say that the server wants it. -/
def advertised : Feature → ServerCapabilities → Bool
  | warning .. => (·.willSave)
  | question q => q.advertised

/-- Whether it is only for documents that the server has open. -/
def forOpen : Feature → Bool
  | warning .. => true
  | question q => Session.isBeforeSave q

/-- The move that calls for it. -/
def call : Feature → Scene.Move
  | warning uri reason => .event (.willSave uri reason)
  | question q => .query q

/-- The task of the call, when it has not begun. -/
def fresh : Feature → Task
  | warning uri reason => .event (.willSave uri reason) .locking
  | question q => .query q .entering

def Says : Feature → Message → Prop
  | warning uri reason, m => m = .notification (Session.willSaveNotice uri reason)
  | question q, m => ∃ r : Request, m = .request r ∧ r.method = q.method ∧ r.params = some q.params

/-! ## Stages -/

/-- How far a call has come. -/
inductive Stage where
  | called
  /-- The document is one for which the feature is. -/
  | regarded
  /-- The capabilities say nothing of it. -/
  | unadvertised
  /-- And the host has named the language of the document. -/
  | named (language : String)
  /-- The message is to be written. -/
  | decided
  /-- The message was written, or will not be. -/
  | past

/-- How far a question for edits has come. -/
def queryStage (before : Bool) : QueryPhase → Stage
  | .entering => .called
  | .locking | .looking => if before then .called else .decided
  | .checking _ => .regarded
  | .naming _ => .unadvertised
  | .matching _ language => .named language
  | .flushing .. => .decided
  | .calling _ call =>
    match call.phase with
    | .entering | .admitted _ | .registered _ => .decided
    | _ => .past
  | .ended _ => .past

/-- How far an event has come. -/
def eventStage : EventPhase → Stage
  | .locking | .looking => .called
  | .checking _ => .regarded
  | .naming _ => .unadvertised
  | .matching _ language => .named language
  | .flushing .. | .writing .. => .decided
  | .ended _ => .past

/-- The notice that a warning is about to write is the one for its document. -/
def Warns (uri : String) (reason : SaveReason) (p : EventPhase) : Prop :=
  ∀ c n, p = .writing c n → n = Session.willSaveNotice uri reason

/-- The call of a question is the one for its request. -/
def Fits (q : EditQuery) (p : QueryPhase) : Prop :=
  ∀ c call, p = .calling c call →
    call.method = q.method ∧ call.params = some q.params ∧ call.cancelled = false

theorem fits_ended (q : EditQuery) (result : Except ClientError (Option (List TextEdit))) :
    Fits q (.ended result) := by
  intro c call same
  cases same

/-- A task is the call for a feature, and has come so far. -/
inductive At : Feature → Task → Stage → Prop where
  | warning (uri : String) (reason : SaveReason) (p : EventPhase) (warns : Warns uri reason p) :
      At (.warning uri reason) (.event (.willSave uri reason) p) (eventStage p)
  | question (q : EditQuery) (p : QueryPhase) (fits : Fits q p) :
      At (.question q) (.query q p) (queryStage (Session.isBeforeSave q) p)

/-- What a step of a call for a feature can do: how far the call comes, and why. -/
inductive Goes (f : Feature) (h : Host) (s : Session) (task : Task) (s' : Session) :
    Stage → Stage → Prop where
  | stays (stage : Stage) : Goes f h s task s' stage stage
  | idle (stage : Stage) (idle : s.state ≠ .running) : Goes f h s task s' stage .past
  | unused (stage : Stage) (unused : s.current = none) : Goes f h s task s' stage .past
  | regarded (known : f.forOpen = true → s.sync.isAnnounced f.uri = true) :
      Goes f h s task s' .called .regarded
  | closed (only : f.forOpen = true) (closed : s.sync.isAnnounced f.uri = false) :
      Goes f h s task s' .called .past
  | advertised (wanted : s.advertises f.advertised = true) : Goes f h s task s' .regarded .decided
  | unadvertised (unwanted : s.advertises f.advertised = false) :
      Goes f h s task s' .regarded .unadvertised
  | named : Goes f h s task s' .unadvertised (.named (h.languageOf f.uri))
  | covered (language : String) (wanted : s.registry.covers f.method language f.uri = true) :
      Goes f h s task s' (.named language) .decided
  | uncovered (language : String) (unwanted : s.registry.covers f.method language f.uri = false) :
      Goes f h s task s' (.named language) .past
  /-- The connection cannot be written on, or has ended. -/
  | failed (stage : Stage) (c : Nat) (works : task.connection? = some c ∨ s.current = some c)
      (down : (s.connection c).canWrite = false ∨ (s.connection c).terminated = true) :
      Goes f h s task s' stage .past
  | wrote (c : Nat) (m : Message) (said : f.Says m)
      (sent : (s'.connection c).sent = (s.connection c).sent ++ [m]) :
      Goes f h s task s' .decided .past

/-! ## Warnings -/

variable {now : Nat} {h h' : Host} {s s' : Session} {t : Nat} {task task' : Task}

theorem sent_writes {c : Nat} (inside : c < s.connections.length) (m : Message) :
    ((s.writes c m).connection c).sent = (s.connection c).sent ++ [m] := by
  simp [Session.writes, Session.onConnection, Session.setConnection, Session.connection, inside]

theorem goes_of_wanted {uri : String} {reason : SaveReason} {c : Nat} {p : EventPhase} {stage : Stage}
    (decides : (warning uri reason).Goes h s task s' stage .decided)
    (next : (∃ params, p = .flushing c params) ∨ p = .writing c (Session.willSaveNotice uri reason)) :
    Warns uri reason p ∧ (warning uri reason).Goes h s task s' stage (eventStage p) := by
  rcases next with ⟨params, rfl⟩ | rfl
  · exact ⟨by simp [Warns], decides⟩
  · refine ⟨?_, decides⟩
    intro c n same
    cases same
    rfl

theorem goes_of_stepEvent {uri : String} {reason : SaveReason} {p p' : EventPhase}
    (grounded : ∀ c, (Task.event (.willSave uri reason) p).connection? = some c →
      c < s.connections.length)
    (warns : Warns uri reason p)
    (step : s.stepEvent now h t (.willSave uri reason) p = some (s', p')) :
    Warns uri reason p' ∧
      (warning uri reason).Goes h s (.event (.willSave uri reason) p) s' (eventStage p)
        (eventStage p') := by
  cases p with
  | locking =>
    simp only [Session.stepEvent] at step
    split at step
    · cases step
    · split at step
      · cases step
        exact ⟨by simp [Warns], .stays _⟩
      · next idle =>
        cases step
        exact ⟨by simp [Warns], .idle _ idle⟩
  | looking =>
    simp only [Session.stepEvent] at step
    split at step
    · next unused =>
      cases step
      exact ⟨by simp [Warns], .unused _ unused⟩
    · next c current =>
      simp only [Session.beginEvent] at step
      split at step
      · next announced =>
        cases step
        exact ⟨by simp [Warns], .regarded fun _ => announced⟩
      · next closed =>
        cases step
        exact ⟨by simp [Warns], .closed rfl (Bool.eq_false_iff.mpr closed)⟩
  | checking c =>
    simp only [Session.stepEvent, Session.checkEvent] at step
    split at step
    · next wanted =>
      split at step
      · cases step
        exact goes_of_wanted (.advertised wanted) (Or.inl ⟨_, rfl⟩)
      · cases step
        exact goes_of_wanted (.advertised wanted) (Or.inr rfl)
    · next unwanted =>
      cases step
      exact ⟨by simp [Warns], .unadvertised (Bool.eq_false_iff.mpr unwanted)⟩
  | naming c =>
    cases step
    exact ⟨by simp [Warns], .named⟩
  | matching c language =>
    simp only [Session.stepEvent, Session.matchEvent] at step
    split at step
    · next wanted =>
      split at step
      · cases step
        exact goes_of_wanted (.covered language wanted) (Or.inl ⟨_, rfl⟩)
      · cases step
        exact goes_of_wanted (.covered language wanted) (Or.inr rfl)
    · next unwanted =>
      cases step
      exact ⟨by simp [Warns], .uncovered language (Bool.eq_false_iff.mpr unwanted)⟩
  | flushing c params =>
    simp only [Session.stepEvent] at step
    split at step
    · cases step
    rcases s.notify_cases c (Session.notice "textDocument/didChange" params) with
      ⟨can, wrote⟩ | ⟨cannot, e, failed⟩
    · rw [wrote] at step
      cases step
      exact goes_of_wanted (.stays _) (Or.inr rfl)
    · rw [failed] at step
      cases step
      exact ⟨by simp [Warns], .failed _ c (Or.inl rfl) (Or.inl cannot)⟩
  | writing c n =>
    -- What is written here was fixed two steps ago: `Warns` says that it is still the right notice.
    obtain rfl := warns c n rfl
    simp only [Session.stepEvent] at step
    split at step
    · cases step
    rcases s.notify_cases c (Session.willSaveNotice uri reason) with
      ⟨can, wrote⟩ | ⟨cannot, e, failed⟩
    · rw [wrote] at step
      cases step
      exact ⟨by simp [Warns], .wrote c _ rfl (sent_writes (grounded c rfl) _)⟩
    · rw [failed] at step
      cases step
      exact ⟨by simp [Warns], .failed _ c (Or.inl rfl) (Or.inl cannot)⟩
  | ended result => cases step

/-! ## Questions -/

variable {q : EditQuery} {c : Nat}

/-- The request of a question is about to be written, or will not be because the connection has
    ended. -/
def Asked (connection : Connection) (before : Bool) (p : QueryPhase) : Prop :=
  queryStage before p = .decided ∨
    connection.terminated = true ∧ queryStage before p = .past

/-- A call that begins has a number, or the connection has ended. -/
theorem asked_of_begun {before : Bool} {call' : Call}
    (begun : Session.Called now s c (Session.queryCall q) s' call') :
    Fits q (.calling c call') ∧ Asked (s.connection c) before (.calling c call') := by
  cases begun with
  | step connection phase step =>
    constructor
    · intro c call same
      cases same
      exact ⟨rfl, rfl, rfl⟩
    · cases step with
      | refused e fresh why =>
        rcases why with ⟨ended, -⟩ | ⟨cancelled, -⟩
        · exact Or.inr ⟨ended, rfl⟩
        · cases cancelled
      | numbered fresh live => exact Or.inl rfl
      | turnedAway id place | registered id place | written id _ place | unwritten id _ place
      | answered id _ _ place | gaveUp id _ _ place | withdrawn id _ place | forgotten id _ place
      | late id _ place | notified id _ place => cases place

theorem asked_of_ask {before : Bool} {p : QueryPhase} (step : s.ask now c q = (s', p)) :
    Fits q p ∧ Asked (s.connection c) before p := by
  have begun : Session.Called now s.unlockSync c (Session.queryCall q) _ _ :=
    Session.beginCall_cases now s.unlockSync c rfl
  have place := congrArg Prod.snd step
  change QueryPhase.calling c (s.unlockSync.beginCall now c (Session.queryCall q)).2 = p at place
  rw [← place]
  exact asked_of_begun (s := s.unlockSync) begun

theorem asked_of_flushAndAsk {before : Bool} {p : QueryPhase}
    (step : s.flushAndAsk now c q = (s', p)) : Fits q p ∧ Asked (s.connection c) before p := by
  unfold Session.flushAndAsk at step
  split at step
  · cases step
    exact ⟨by simp [Fits], Or.inl rfl⟩
  · next sync nothing => exact asked_of_ask (s := { s with sync }) step

theorem goes_of_called {call call' : Call} (inside : c < s.connections.length)
    (fits : Fits q (.calling c call)) (step : Session.Called now s c call s' call') :
    Fits q (.calling c call') ∧
      (question q).Goes h s (.query q (.calling c call)) s'
        (queryStage (Session.isBeforeSave q) (.calling c call))
        (queryStage (Session.isBeforeSave q) (.calling c call')) := by
  obtain ⟨named, given, uncancelled⟩ := fits c call rfl
  cases step with
  | step connection phase step =>
    constructor
    · intro c' call' same
      cases same
      exact ⟨named, given, uncancelled⟩
    · cases step with
      -- Nobody cancels the request of a question, so it is refused for its connection alone.
      | refused e fresh why =>
        rcases why with ⟨ended, -⟩ | ⟨cancelled, -⟩
        · exact .failed _ c (Or.inl rfl) (Or.inr ended)
        · rw [uncancelled] at cancelled
          cases cancelled
      | turnedAway id place ended => exact .failed _ c (Or.inl rfl) (Or.inr ended)
      | unwritten id e place failed =>
        obtain ⟨cannot, -⟩ := Connection.canWrite_eq_false_of_write failed
        exact .failed _ c (Or.inl rfl) (Or.inl cannot)
      | numbered fresh live =>
        simp only [queryStage, fresh]
        exact .stays _
      | registered id place live =>
        simp only [queryStage, place]
        exact .stays _
      | written id connection place wrote =>
        simp only [queryStage, place]
        obtain ⟨-, rfl⟩ := Connection.canWrite_of_write wrote
        refine .wrote c (.request (call.request id)) ⟨_, rfl, named, given⟩ ?_
        simp [Session.setConnection, Session.connection, inside]
      | answered id _ _ place | gaveUp id _ _ place | withdrawn id _ place | forgotten id _ place
      | late id _ place | notified id _ place =>
        simp only [queryStage, place]
        exact .stays _

theorem terminated_writes (s : Session) (c : Nat) (m : Message) :
    ((s.writes c m).connection c).terminated = (s.connection c).terminated := by
  rcases s.connection_writes c m with wrote | same
  · rw [wrote]
  · rw [same]

theorem goes_of_goAhead {c : Option Nat} {p : QueryPhase} {works : Task} {stage : Stage}
    (sound : c.isSome = Session.isBeforeSave q)
    (current : ∀ c', c = some c' → works.connection? = some c')
    (decides : (question q).Goes h s works s' stage .decided) (step : s.goAhead now q c = (s', p)) :
    Fits q p ∧ (question q).Goes h s works s' stage (queryStage (Session.isBeforeSave q) p) := by
  cases c with
  | none =>
    cases step
    refine ⟨by simp [Fits], ?_⟩
    rw [queryStage, ← sound]
    exact decides
  | some c =>
    obtain ⟨fits, decided | ⟨ended, past⟩⟩ := asked_of_flushAndAsk step
    · rw [decided]
      exact ⟨fits, decides⟩
    · rw [past]
      exact ⟨fits, .failed _ c (Or.inl (current c rfl)) (Or.inr ended)⟩

/-- Nothing is asked of a server that does not answer the question. -/
theorem goes_of_giveUp {p : QueryPhase} {works : Task} {stage : Stage}
    (leaves : (question q).Goes h s works s' stage .past) (step : s.giveUp q = (s', p)) :
    Fits q p ∧ (question q).Goes h s works s' stage (queryStage (Session.isBeforeSave q) p) := by
  unfold Session.giveUp at step
  split at step
  · cases step
    exact ⟨by simp [Fits], leaves⟩
  · cases step
    exact ⟨by simp [Fits], leaves⟩

theorem goes_of_stepQuery {p p' : QueryPhase} (sound : (Task.query q p).Sound)
    (grounded : ∀ c, (Task.query q p).connection? = some c → c < s.connections.length)
    (fits : Fits q p) (step : s.stepQuery now h t q p = some (s', p')) :
    Fits q p' ∧ (question q).Goes h s (.query q p) s' (queryStage (Session.isBeforeSave q) p)
      (queryStage (Session.isBeforeSave q) p') := by
  cases p with
  | entering =>
    simp only [Session.stepQuery] at step
    split at step
    · cases step
      exact ⟨by simp [Fits], .stays _⟩
    · split at step
      · cases step
        exact ⟨by simp [Fits], .regarded (by simp [forOpen, Session.isBeforeSave])⟩
      · next idle =>
        cases step
        exact ⟨fits_ended _ _, .idle _ idle⟩
  | locking =>
    simp only [Session.stepQuery] at step
    split at step
    · cases step
    · split at step
      · cases step
        exact ⟨by simp [Fits], .stays _⟩
      · next idle =>
        split at step
        · cases step
          exact ⟨fits_ended _ _, .idle _ idle⟩
        · cases step
          exact ⟨fits_ended _ _, .idle _ idle⟩
  | looking =>
    simp only [Session.stepQuery] at step
    split at step
    · next uri reason c current =>
      split at step
      · next announced =>
        cases step
        exact ⟨by simp [Fits], .regarded fun _ => announced⟩
      · next closed =>
        cases step
        exact ⟨fits_ended _ _, .closed rfl (Bool.eq_false_iff.mpr closed)⟩
    · next unused =>
      cases step
      exact ⟨fits_ended _ _, .unused _ unused⟩
    · next uri options c current =>
      -- what is asked is decided by looking at the registry, or the question ends without asking
      obtain ⟨fits, decided | ⟨ended, past⟩⟩ := asked_of_flushAndAsk (Option.some.inj step)
      · rw [decided]
        exact ⟨fits, .stays _⟩
      · rw [past]
        exact ⟨fits, .failed _ c (Or.inr current) (Or.inr ended)⟩
    · next unused =>
      cases step
      exact ⟨fits_ended _ _, .unused _ unused⟩
  | checking c =>
    simp only [Session.stepQuery] at step
    split at step
    · next wanted =>
      exact goes_of_goAhead sound (fun _ => id) (.advertised wanted) (Option.some.inj step)
    · next unwanted =>
      cases step
      exact ⟨by simp [Fits], .unadvertised (Bool.eq_false_iff.mpr unwanted)⟩
  | naming c =>
    cases step
    exact ⟨by simp [Fits], .named⟩
  | matching c language =>
    simp only [Session.stepQuery] at step
    split at step
    · next wanted =>
      exact goes_of_goAhead sound (fun _ => id) (.covered language wanted) (Option.some.inj step)
    · next unwanted =>
      exact goes_of_giveUp (.uncovered language (Bool.eq_false_iff.mpr unwanted))
        (Option.some.inj step)
  | flushing c params =>
    simp only [Session.stepQuery] at step
    split at step
    · cases step
    rcases s.notify_cases c (Session.notice "textDocument/didChange" params) with
      ⟨can, wrote⟩ | ⟨cannot, e, failed⟩
    · simp only [wrote, Option.some.injEq] at step
      obtain ⟨fits, decided | ⟨ended, past⟩⟩ := asked_of_ask step
      · rw [decided]
        exact ⟨fits, .stays _⟩
      · rw [past]
        rw [terminated_writes] at ended
        exact ⟨fits, .failed _ c (Or.inl rfl) (Or.inr ended)⟩
    · rw [failed] at step
      cases step
      exact ⟨fits_ended _ _, .failed _ c (Or.inl rfl) (Or.inl cannot)⟩
  | calling c call =>
    simp only [Session.stepQuery] at step
    split at step
    · next result ended =>
      cases step
      refine ⟨fits_ended _ _, ?_⟩
      have past : queryStage (Session.isBeforeSave q) (.calling c call) = .past := by
        unfold Call.result? at ended
        split at ended
        · next place => simp only [queryStage, place]
        · cases ended
      rw [past]
      exact .stays _
    · obtain ⟨⟨s₁, call'⟩, stepped, same⟩ := Option.map_eq_some_iff.mp step
      cases same
      exact goes_of_called (grounded c rfl) fits (Session.stepCall_cases stepped)
  | ended result => cases step

/-! ## Calls -/

variable {f : Feature} {stage : Stage}

theorem at_fresh (f : Feature) : f.At f.fresh .called := by
  cases f with
  | warning uri reason => exact .warning uri reason .locking (by simp [Warns])
  | question q => exact .question q .entering (by simp [Fits])

theorem Goes.setTask {stage' : Stage} {x : Task} (goes : f.Goes h s task s' stage stage') :
    f.Goes h s task (s'.setTask t x) stage stage' := by
  cases goes with
  | stays => exact .stays _
  | idle _ idle => exact .idle _ idle
  | unused _ unused => exact .unused _ unused
  | regarded known => exact .regarded known
  | closed only closed => exact .closed only closed
  | advertised wanted => exact .advertised wanted
  | unadvertised unwanted => exact .unadvertised unwanted
  | named => exact .named
  | covered language wanted => exact .covered language wanted
  | uncovered language unwanted => exact .uncovered language unwanted
  | failed _ c works down => exact .failed _ c works down
  | wrote c m said sent => exact .wrote c m said sent

theorem goes_of_stepTask (sound : task.Sound)
    (grounded : ∀ c, task.connection? = some c → c < s.connections.length)
    (here : s.tasks[t]? = some task) (calls : f.At task stage)
    (step : s.stepTask now h t = some (h', s')) :
    ∃ (s₁ : Session) (task' : Task) (stage' : Stage), h' = h ∧ s' = s₁.setTask t task' ∧
      f.At task' stage' ∧ f.Goes h s task s' stage stage' := by
  cases calls with
  | warning uri reason p warns =>
    simp only [Session.stepTask, here, Option.bind_eq_bind, Option.bind_some] at step
    obtain ⟨_, kept, same⟩ := Option.map_eq_some_iff.mp step
    obtain ⟨⟨s₁, p'⟩, stepped, rfl⟩ := Option.map_eq_some_iff.mp kept
    obtain ⟨rfl, rfl⟩ := Prod.mk.inj same
    obtain ⟨warns', goes⟩ := goes_of_stepEvent grounded warns stepped
    exact ⟨s₁, _, _, rfl, rfl, .warning uri reason p' warns', goes.setTask⟩
  | question q p fits =>
    simp only [Session.stepTask, here, Option.bind_eq_bind, Option.bind_some] at step
    obtain ⟨_, kept, same⟩ := Option.map_eq_some_iff.mp step
    obtain ⟨⟨s₁, p'⟩, stepped, rfl⟩ := Option.map_eq_some_iff.mp kept
    obtain ⟨rfl, rfl⟩ := Prod.mk.inj same
    obtain ⟨fits', goes⟩ := goes_of_stepQuery sound grounded fits stepped
    exact ⟨s₁, _, _, rfl, rfl, .question q p' fits', goes.setTask⟩

/-- A call writes its message only when it has been decided to. -/
theorem decided_of_says {c : Nat} {m : Message} (calls : f.At task stage) (writes : task.Writes c m)
    (said : f.Says m) : stage = .decided := by
  cases calls with
  | warning uri reason p warns =>
    obtain rfl : m = .notification (Session.willSaveNotice uri reason) := said
    generalize same : Message.notification (Session.willSaveNotice uri reason) = m at writes
    cases writes with
    | noticed n speech =>
      cases p with
      | flushing | writing => rfl
      | _ => cases speech
    | asked => cases same
    | withdrew call id e calling => cases calling
  | question q p fits =>
    obtain ⟨r, rfl, -⟩ := said
    generalize same : Message.request r = m at writes
    cases writes with
    | asked call id calling place =>
      cases p with
      | calling c' call' =>
        obtain ⟨-, rfl⟩ := Prod.mk.inj (Option.some.inj calling)
        simp only [queryStage, place]
      | _ => cases calling
    | noticed | withdrew => cases same

end Feature

end LanguageClient
