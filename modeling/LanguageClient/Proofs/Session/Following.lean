import LanguageClient.Proofs.Document.Edition
import LanguageClient.Proofs.Session.Attached
/-!
# A running session follows events

Once a session runs, an event that has the lock on the documents is read (`RanOn.event_made`), and a
start that replays the open documents reads each of them as an opening (`Announced.reached`).  Nothing
else that happens changes what the session has reached (`RanOn.reached_apart`).

So the documents that a start still has to replay are like events that come before all others:
`Follows` says that what is due to be read is what was read, then what is left of the replay, and then
the events that were not taken yet.
-/

namespace LanguageClient

namespace Session

variable {now : Nat} {h h' : Host} {s s' : Session} {t i c : Nat} {task task' : Task}
  {e : DocumentEvent} {op : SyncOp}

/-! ## An event is read -/

/-- What an event does that has the lock and a connection: the operation that it asks for, and then it
    tells what the operation gives out. -/
structure Made (s : Session) (e : DocumentEvent) (op : SyncOp) (s' : Session) (p : EventPhase) :
    Prop where
  sync : s'.sync = (s.sync.step op).2
  owed : (Task.event e p).owed = (s.sync.step op).1.notification?.toList
  connections : s'.connections = s.connections
  refused : ∀ error, p = .ended (.error error) → (s.sync.step op).1 = .refused error

theorem beginEvent_made (s : Session) (now c : Nat) (asks : e.op? = some op) :
    s.Made e op (s.beginEvent now c e).1 (s.beginEvent now c e).2 := by
  cases e with
  | opened d =>
    obtain rfl := Option.some.inj asks
    cases told : s.sync.open d with
    | mk params sync =>
      cases params <;>
        constructor <;> simp [beginEvent, told, tell, finishEvent, unlockSync, DocumentSync.step,
          SyncAnswer.notification?, Task.owed]
  | changed change =>
    obtain rfl := Option.some.inj asks
    cases told : s.sync.change change with
    | error error =>
      constructor <;> simp [beginEvent, told, finishEvent, unlockSync, DocumentSync.step,
        SyncAnswer.notification?, Task.owed]
    | ok result =>
      obtain ⟨action, sync⟩ := result
      cases action <;>
        constructor <;> simp [beginEvent, told, tell, finishEvent, unlockSync, stage, spawn,
          DocumentSync.step, SyncAnswer.notification?, Task.owed]
  | closed uri =>
    obtain rfl := Option.some.inj asks
    cases told : s.sync.close uri with
    | mk params sync =>
      cases params <;>
        constructor <;> simp [beginEvent, told, tell, finishEvent, unlockSync, DocumentSync.step,
          SyncAnswer.notification?, Task.owed]
  | willSave | saved => simp [DocumentEvent.op?] at asks

/-! ## Documents are replayed -/

/-- Documents that the server is told nothing of are read, with no effect. -/
theorem reached_passed {selector : DocumentSelector} {edition : Option Edition} {docs : List Document}
    {ns : List Notification} {uri : String} (reached : Reached s.sync ns uri edition)
    (on : s.sync.kind ≠ .none) (covered : s.sync.Covered) (chosen : s.sync.selector = selector)
    (passed : ∀ d ∈ docs, s.sync.open d = (none, s.sync)) :
    Reached s.sync ns uri (selector.readAll uri edition (docs.map .opened)) := by
  induction docs generalizing edition with
  | nil => exact reached
  | cons d docs ih =>
    have read := reached.opening on covered d
    have same : s.sync.step (.open d) = (.opened none, s.sync) := by
      simp [DocumentSync.step, passed d (by simp)]
    rw [same, chosen] at read
    exact ih (by simpa [SyncAnswer.notification?] using read) fun d among => passed d (by simp [among])

/-- A start reads the first documents of the replay as openings, up to the next one that it tells the
    server of, or all of them. -/
theorem Announced.reached {selector : DocumentSelector} {docs : List Document} {p : StartPhase}
    {ns : List Notification} {taken : List DocumentEvent} (next : Announced s c docs s' p)
    (on : s.sync.kind ≠ .none) (covered : s.sync.Covered) (chosen : s.sync.selector = selector)
    (reached : ∀ uri, Reached s.sync ns uri (selector.readAll uri none taken)) :
    ∃ first left, docs = first ++ left ∧
      (∀ uri, Reached s'.sync (ns ++ (Task.start p).owed) uri
        (selector.readAll uri none (taken ++ first.map .opened))) ∧
      ((∃ params, p = .announcing c params left) ∨ left = [] ∧ p = .ended (.ok ())) := by
  cases next with
  | finished passed =>
    refine ⟨docs, [], by simp, fun uri => ?_, Or.inr ⟨rfl, rfl⟩⟩
    have read := reached_passed (reached uri) on covered chosen passed
    simpa [Task.owed, unlockStart, unlockSync] using read
  | next skipped d rest params sync split passed told =>
    refine ⟨skipped ++ [d], rest, by simp [split], fun uri => ?_, Or.inl ⟨params, rfl⟩⟩
    have read := (reached_passed (reached uri) on covered chosen passed).opening on covered d
    have done : s.sync.step (.open d) = (.opened (some params), sync) := by
      simp [DocumentSync.step, told]
    rw [done, chosen] at read
    simpa [Task.owed, SyncAnswer.notification?] using read

/-! ## Where a session stands that follows events -/

/-- What is left of the replay: a start is about to tell of some documents more, or there is none that
    tells of documents. -/
inductive Left (s : Session) (c : Nat) : List Document → Prop where
  | replay (t : Nat) (params : DidOpenParams) (left : List Document)
      (here : s.tasks[t]? = some (.start (.announcing c params left))) : Left s c left
  | done (idle : ∀ (t : Nat) (p : StartPhase), s.tasks[t]? = some (.start p) →
      ¬ (Task.start p).HoldsSync) : Left s c []

/-- What is due to be read is what a session has read, what is left of the replay, and the events that
    it has not taken. -/
def Follows (s : Session) (selector : DocumentSelector) (c : Nat) (untaken due : List DocumentEvent) :
    Prop :=
  ∃ taken left, due = taken ++ (left.map .opened ++ untaken) ∧ s.Left c left ∧
    ∀ uri, Reached s.sync (s.conversation c) uri (selector.readAll uri none taken)

/-- More may become due. -/
theorem Follows.more {selector : DocumentSelector} {untaken due : List DocumentEvent}
    (follows : s.Follows selector c untaken due) (more : List DocumentEvent) :
    s.Follows selector c (untaken ++ more) (due ++ more) := by
  obtain ⟨taken, left, rfl, place, reached⟩ := follows
  exact ⟨taken, left, by simp, place, reached⟩

/-- A start has taken the lock on the documents, and has told nothing and listed nothing so far. -/
structure Awaits (s : Session) (c : Nat) : Prop where
  here : ∃ (t : Nat) (p : StartPhase), s.tasks[t]? = some (.start p) ∧
    ((∃ kind, kind ≠ .none ∧ p = .greeting c kind) ∨ p = .listing c)
  closed : ∀ uri, s.sync.isAnnounced uri = false
  untold : s.told c = []

/-- While a start is about to list the documents, no event has the lock on them. -/
theorem Awaits.not_looking (awaits : s.Awaits c) (locked : s.Locked) :
    s.tasks[i]? ≠ some (.event e .looking) := by
  obtain ⟨⟨t, p, here, place⟩, -, -⟩ := awaits
  have holds : (Task.start p).HoldsSync := by
    rcases place with ⟨kind, -, rfl⟩ | rfl <;> trivial
  intro looking
  obtain rfl := locked.unique here holds looking trivial
  exact absurd (here.symm.trans looking) (by simp)

/-- When no start tells of documents, all that was taken has been read. -/
theorem Left.eq_nil {left : List Document} (place : s.Left c left)
    (idle : ∀ (t : Nat) (p : StartPhase), s.tasks[t]? = some (.start p) →
      ¬ (Task.start p).HoldsSync) : left = [] := by
  cases place with
  | replay t params left here => exact absurd trivial (idle t _ here)
  | done => rfl

/-- When nothing is left, all that is due has been read. -/
theorem Follows.reached {selector : DocumentSelector} {due : List DocumentEvent}
    (follows : s.Follows selector c [] due)
    (idle : ∀ (t : Nat) (p : StartPhase), s.tasks[t]? = some (.start p) →
      ¬ (Task.start p).HoldsSync) (uri : String) :
    Reached s.sync (s.conversation c) uri (selector.readAll uri none due) := by
  obtain ⟨taken, left, rfl, place, reached⟩ := follows
  obtain rfl := place.eq_nil idle
  simpa using reached uri

/-- While an event has the lock on the documents, no start tells of them. -/
theorem Locked.idle_of_looking (locked : s.Locked) (here : s.tasks[i]? = some (.event e .looking))
    (t : Nat) (p : StartPhase) (there : s.tasks[t]? = some (.start p)) :
    ¬ (Task.start p).HoldsSync := by
  intro holds
  obtain rfl := locked.unique there holds here trivial
  exact absurd (here.symm.trans there) (by simp)

/-- When an event has the lock, all that is due before the events that were not taken has been read. -/
theorem Follows.of_looking {selector : DocumentSelector} {untaken due : List DocumentEvent}
    (follows : s.Follows selector c untaken due) (locked : s.Locked)
    (here : s.tasks[i]? = some (.event e .looking)) :
    ∃ taken, due = taken ++ untaken ∧
      ∀ uri, Reached s.sync (s.conversation c) uri (selector.readAll uri none taken) := by
  obtain ⟨taken, left, rfl, place, reached⟩ := follows
  obtain rfl := place.eq_nil (locked.idle_of_looking here)
  exact ⟨taken, rfl, reached⟩

/-- A start comes to tell of documents only when the session begins to run. -/
theorem StartStep.holds_back {p p' : StartPhase} (step : StartStep now h s t p h' s' p')
    (past : p.Past c) (holds : (Task.start p').HoldsSync) : (Task.start p).HoldsSync := by
  cases step with
  | ran | overtaken => exact past.elim
  | listed | announced | greeted => trivial
  | retried c' attempt _ _ call place =>
    rcases place with ⟨failure, rfl⟩ | ⟨failure, deadline, rfl⟩ <;> exact past.elim
  | concluded _ _ _ _ _ _ _ _ next | answered _ _ _ _ _ _ _ _ _ _ _ _ next => exact past.elim
  | connected => exact past.elim
  | _ => exact holds.elim

end Session

namespace Scene

variable {setup : Setup} {moves : List Move} {move : Move} {t c i : Nat} {kind : SyncKind}
  {e : DocumentEvent} {op : SyncOp}

/-- A session that has begun to run did so before the last move, or with it. -/
theorem RanOn.of_concat (ran : RanOn setup (moves ++ [move]) t c kind) :
    RanOn setup moves t c kind ∨ ((machine setup).after moves).session.Quiet ∧
      Session.Ran ((machine setup).after moves).session
        ((machine setup).after (moves ++ [move])).session t c kind := by
  obtain ⟨before, first, later, split, quiet, step⟩ := ran
  rcases List.eq_nil_or_concat later with rfl | ⟨later, last, rfl⟩
  · obtain ⟨rfl, rfl⟩ := by simpa using split
    exact Or.inr ⟨quiet, step⟩
  · rw [List.concat_eq_append, ← List.cons_append, ← List.append_assoc] at split
    obtain ⟨rfl, -⟩ := List.append_inj' split rfl
    exact Or.inl ⟨before, first, later, rfl, quiet, step⟩

/-- An event that has the lock takes a step when it has a turn. -/
theorem step_event_made {d : Scene} (here : d.session.tasks[i]? = some (.event e .looking))
    (current : d.session.current = some c) (asks : e.op? = some op) :
    ∃ s₁ p, d.session.Made e op s₁ p ∧
      d.session.stepEvent d.now d.host i e .looking = some (s₁, p) ∧
      d.step (.act (.task i)) = { d with session := s₁.setTask i (.event e p) } := by
  have stepped : d.session.stepEvent d.now d.host i e .looking =
      some (d.session.beginEvent d.now c e) := by
    simp [Session.stepEvent, current]
  refine ⟨_, _, d.session.beginEvent_made d.now c asks, stepped, ?_⟩
  simp [step, Session.step, Session.stepTask, here, stepped, touch]

/-- An event that has the lock on the documents and finds a connection is read. -/
theorem event_made (current : ((machine setup).after moves).session.current = some c)
    (here : ((machine setup).after moves).session.tasks[i]? = some (.event e .looking))
    (asks : e.op? = some op) :
    let s := ((machine setup).after moves).session
    let s' := ((machine setup).after (moves ++ [.act (.task i)])).session
    ∃ s₁ p, s.Made e op s₁ p ∧ s' = s₁.setTask i (.event e p) ∧
      s'.sync = (s.sync.step op).2 ∧
      s'.conversation c = s.conversation c ++ (s.sync.step op).1.notification?.toList := by
  intro s s'
  have covered : s.sync.Covered := covered_after moves
  have locked : s.Locked := locked_after moves
  obtain ⟨s₁, p, made, taken, result⟩ := step_event_made here current asks
  have stepped : s' = s₁.setTask i (.event e p) := by
    simp only [s', Machine.after_concat, step_machine, result]
  obtain ⟨before, after⟩ := (Session.TaskStep.event e .looking s₁ p
    (Session.stepEvent_cases covered taken)).owed_eq here locked (Or.inr (locked.holder i _ here trivial))
  refine ⟨s₁, p, made, stepped, by rw [stepped]; exact made.sync, ?_⟩
  have told : s'.told c = s.told c := by
    rw [stepped]
    exact Session.told_of_connections made.connections
  have owed : s'.owed = (s.sync.step op).1.notification?.toList := by
    rw [stepped, after, made.owed]
  have nothing : (Task.event e .looking).owed = [] := rfl
  rw [Session.conversation, told, owed, Session.conversation, before, nothing, List.append_nil]

/-- An event that has the lock on the documents of a running session is read. -/
theorem RanOn.event_made (ran : RanOn setup moves t c kind)
    (running : ((machine setup).after moves).session.state = .running)
    (can : (((machine setup).after moves).session.connection c).canWrite = true)
    (here : ((machine setup).after moves).session.tasks[i]? = some (.event e .looking))
    (asks : e.op? = some op) :
    let s := ((machine setup).after moves).session
    let s' := ((machine setup).after (moves ++ [.act (.task i)])).session
    ∃ s₁ p, s.Made e op s₁ p ∧ s' = s₁.setTask i (.event e p) ∧
      s'.sync = (s.sync.step op).2 ∧
      s'.conversation c = s.conversation c ++ (s.sync.step op).1.notification?.toList :=
  Scene.event_made (ran.attached running can).used here asks

/-- What a session has reached stays, unless somebody makes an operation for an event. -/
theorem RanOn.reached_apart (ran : RanOn setup moves t c kind) {uri : String}
    {edition : Option Edition}
    (running : ((machine setup).after (moves ++ [move])).session.state = .running)
    (can : (((machine setup).after (moves ++ [move])).session.connection c).canWrite = true)
    (other : ∀ op, ((machine setup).after moves).Asks move op → ¬ op.IsEvent)
    (reached : Reached ((machine setup).after moves).session.sync
      (((machine setup).after moves).session.conversation c) uri edition) :
    Reached ((machine setup).after (moves ++ [move])).session.sync
      (((machine setup).after (moves ++ [move])).session.conversation c) uri edition := by
  obtain ⟨notes, telling, heard⟩ := ran.telling move running can
  rw [heard]
  exact reached.telling (covered_after moves) telling other

/-- A start that tells of documents has done so since the session began to run. -/
theorem RanOn.idle_step (ran : RanOn setup moves t c kind)
    (idle : ∀ (i : Nat) (p : StartPhase),
      ((machine setup).after moves).session.tasks[i]? = some (.start p) → ¬ (Task.start p).HoldsSync)
    (i : Nat) (p : StartPhase)
    (here : ((machine setup).after (moves ++ [move])).session.tasks[i]? = some (.start p)) :
    ¬ (Task.start p).HoldsSync := by
  intro holds
  rcases (change_after moves move).start_at here with same | rfl | ⟨q, h, s, there, step⟩
  · exact idle i p same holds
  · exact holds
  · exact idle i q there (step.holds_back (ran.on.past i q there) holds)

/-- While a start has the lock on the documents, nothing happens about them, or the start takes a step. -/
theorem holder_step {p : StartPhase} (move : Move) (c : Nat)
    (here : ((machine setup).after moves).session.tasks[i]? = some (.start p))
    (holds : (Task.start p).HoldsSync) :
    let d := (machine setup).after moves
    let s' := ((machine setup).after (moves ++ [move])).session
    (s'.tasks[i]? = some (.start p) ∧ s'.sync = d.session.sync ∧ s'.told c = d.session.told c ∧
      s'.conversation c = d.session.conversation c) ∨
    ∃ h s₁ p', Session.StartStep d.now d.host d.session i p h s₁ p' ∧
      s'.tasks[i]? = some (.start p') ∧ s'.sync = s₁.sync ∧ s'.told c = s₁.told c ∧
      d.session.conversation c = d.session.told c ++ (Task.start p).owed ∧
      s'.conversation c = s₁.told c ++ (Task.start p').owed := by
  intro d s'
  have locked : d.session.Locked := locked_after moves
  have locked' : s'.Locked := locked_after (moves ++ [move])
  have held := locked.holder i _ here holds
  have before := locked.owed here (Or.inr held)
  rcases (change_after moves move).of_holder locked here holds with
    ⟨same, sync, told⟩ | ⟨s₁, p', step, result, here'⟩
  · refine Or.inl ⟨same, sync, told c, ?_⟩
    have after := locked'.owed same (Or.inr (locked'.holder i _ same holds))
    rw [Session.conversation, told, after, ← before, Session.conversation]
  · have result : s' = s₁.setTask i (.start p') := result
    have after := ((Session.TaskStep.start p _ s₁ p' step).owed_eq here locked (Or.inr held)).2
    have told : s'.told c = s₁.told c := by rw [result]; rfl
    refine Or.inr ⟨_, s₁, p', step, here', by rw [result]; rfl, told, ?_, ?_⟩
    · rw [Session.conversation, before]
    · rw [Session.conversation, told, result, after]

/-- When the start that had the lock on the documents does not tell of them any more, none does. -/
theorem RanOn.idle_of_released (ran : RanOn setup moves t c kind) {p p' : StartPhase}
    (here : ((machine setup).after moves).session.tasks[i]? = some (.start p))
    (holds : (Task.start p).HoldsSync)
    (here' : ((machine setup).after (moves ++ [move])).session.tasks[i]? = some (.start p'))
    (released : ¬ (Task.start p').HoldsSync) (j : Nat) (q : StartPhase)
    (there : ((machine setup).after (moves ++ [move])).session.tasks[j]? = some (.start q)) :
    ¬ (Task.start q).HoldsSync := by
  intro also
  have held : ∀ q, ((machine setup).after moves).session.tasks[j]? = some (.start q) →
      (Task.start q).HoldsSync → j = i :=
    fun q before holds' => (locked_after moves).unique before holds' here holds
  have same : j = i := by
    rcases (change_after moves move).start_at there with same | rfl | ⟨q', h, s, before, step⟩
    · exact held q same also
    · exact also.elim
    · exact held q' before (step.holds_back (ran.on.past j q' before) also)
  subst same
  obtain rfl := Task.start.inj (Option.some.inj (there.symm.trans here'))
  exact released also

/-! ## Steps of a session that follows events -/

/-- A start goes on with the replay of some documents: they are due, and then the events. -/
theorem RanOn.follows_of_announced (ran : RanOn setup moves t c kind) (on : kind ≠ .none)
    {docs : List Document} {p p' : StartPhase} {s s₁ : Session} {ns : List Notification}
    {taken untaken : List DocumentEvent} (next : Session.Announced s c docs s₁ p')
    (sync : s.sync = ((machine setup).after moves).session.sync)
    (reached : ∀ uri, Reached s.sync ns uri (setup.server.selector.readAll uri none taken))
    (here : ((machine setup).after moves).session.tasks[i]? = some (.start p))
    (holds : (Task.start p).HoldsSync)
    (here' : ((machine setup).after (moves ++ [move])).session.tasks[i]? = some (.start p'))
    (sync' : ((machine setup).after (moves ++ [move])).session.sync = s₁.sync)
    (conversation : ((machine setup).after (moves ++ [move])).session.conversation c =
      ns ++ (Task.start p').owed) :
    ((machine setup).after (moves ++ [move])).session.Follows setup.server.selector c untaken
      (taken ++ (docs.map .opened ++ untaken)) := by
  have kept : s.sync.kind ≠ .none := by
    rw [sync, ran.sync_kind]
    exact on
  obtain ⟨first, left, rfl, reached', place⟩ :=
    next.reached kept (sync ▸ covered_after moves) (sync ▸ selector_after moves) reached
  refine ⟨taken ++ first.map .opened, left, by simp, ?_, fun uri => ?_⟩
  · rcases place with ⟨params, rfl⟩ | ⟨rfl, rfl⟩
    · exact .replay i params left here'
    · exact .done (ran.idle_of_released here holds here' id)
  · rw [sync', conversation]
    exact reached' uri

/-- **The replay begins.**  A start that has told nothing so far goes on to do so, or it takes the list of
    the open documents: then these are due before all events. -/
theorem RanOn.awaits_step (ran : RanOn setup moves t c kind) (on : kind ≠ .none)
    (can : (((machine setup).after (moves ++ [move])).session.connection c).canWrite = true)
    (awaits : ((machine setup).after moves).session.Awaits c) (untaken : List DocumentEvent) :
    ((machine setup).after (moves ++ [move])).session.Awaits c ∨
      ((machine setup).after (moves ++ [move])).session.Follows setup.server.selector c untaken
        (((machine setup).after moves).host.documents.map .opened ++ untaken) := by
  obtain ⟨⟨i, p, here, place⟩, closed, untold⟩ := awaits
  have could := (change_after moves move).canWrite c can
  -- from the greeting to the list of documents, the start holds the lock
  have holds : (Task.start p).HoldsSync := by
    rcases place with ⟨kind, -, rfl⟩ | rfl <;> trivial
  rcases holder_step move c here holds with
    ⟨same, sync, told, -⟩ | ⟨h, s₁, p', step, here', sync, told, before, after⟩
  · exact Or.inl ⟨⟨i, p, same, place⟩, by rw [sync]; exact closed, told.trans untold⟩
  rcases place with ⟨kind', some, rfl⟩ | rfl
  · cases step with
    | greeted _ _ _ _ =>
      refine Or.inl ⟨⟨i, _, here', Or.inr rfl⟩, by rw [sync]; exact closed, ?_⟩
      rw [told]
      refine (Session.told_writes ran.on.inside c).trans ?_
      simp [untold, documentNotifications, Message.documentNotification?, Notification.kind?,
        NoticeKind.ofMethod?]
    | greetedOnly => exact absurd rfl some
    | unwritten _ _ e place cannot =>
      obtain ⟨kind'', same⟩ | ⟨params, rest, same⟩ := place
      · obtain ⟨rfl, -⟩ := by simpa using same
        simp [could] at cannot
      · simp at same
    | retried _ _ _ _ _ place | gaveUp _ _ _ _ place => simp at place
  · cases step with
    | listed _ _ _ next =>
      -- nothing was told before, so that every document stands where the replay begins
      have nothing : ∀ uri, Reached ((machine setup).after moves).session.sync [] uri
          (setup.server.selector.readAll uri none []) := Reached.nothing closed
      refine Or.inr (ran.follows_of_announced on next rfl nothing here trivial here' sync ?_)
      -- taking the list tells nothing yet
      have silent : s₁.told c = [] := by
        refine Eq.trans ?_ untold
        cases next <;> rfl
      rw [after, silent]
    | retried _ _ _ _ _ place | gaveUp _ _ _ _ place | unwritten _ _ _ place => simp at place

/-- The replay goes on, or nothing happens about documents. -/
theorem RanOn.replay_step (ran : RanOn setup moves t c kind) (on : kind ≠ .none)
    (can : (((machine setup).after (moves ++ [move])).session.connection c).canWrite = true)
    {params : DidOpenParams} {left : List Document} {taken untaken : List DocumentEvent}
    (here : ((machine setup).after moves).session.tasks[i]? =
      some (.start (.announcing c params left)))
    (reached : ∀ uri, Reached ((machine setup).after moves).session.sync
      (((machine setup).after moves).session.conversation c) uri
      (setup.server.selector.readAll uri none taken)) :
    ((machine setup).after (moves ++ [move])).session.Follows setup.server.selector c untaken
      (taken ++ (left.map .opened ++ untaken)) := by
  have could := (change_after moves move).canWrite c can
  rcases holder_step move c here trivial with
    ⟨same, sync, told, conversation⟩ | ⟨h, s₁, p', step, here', sync, told, before, after⟩
  · refine ⟨taken, left, rfl, .replay i params left same, fun uri => ?_⟩
    rw [sync, conversation]
    exact reached uri
  · cases step with
    | announced _ _ _ _ _ written next =>
      refine ran.follows_of_announced on next rfl reached here trivial here' sync ?_
      -- the step writes the one notification that was ready
      have told : s₁.told c = ((machine setup).after moves).session.told c ++
          [Session.notice "textDocument/didOpen" params] := by
        refine Eq.trans ?_ (Session.told_writes_notification (c := c) ran.on.inside
          ⟨_, (Notification.tells_didOpen params).kind⟩)
        cases next <;> rfl
      rw [after, told, before]
      rfl
    | unwritten _ _ e place cannot =>
      obtain ⟨kind'', same⟩ | ⟨params', rest', same⟩ := place
      · simp at same
      · obtain ⟨rfl, -⟩ := by simpa using same
        simp [could] at cannot
    | retried _ _ _ _ _ place | gaveUp _ _ _ _ place => simp at place

/-- **Events are followed.**  With a move that takes no event, or takes the next one, a session goes on to
    follow them. -/
theorem RanOn.follows_step (ran : RanOn setup moves t c kind) (on : kind ≠ .none)
    (running : ((machine setup).after (moves ++ [move])).session.state = .running)
    (can : (((machine setup).after (moves ++ [move])).session.connection c).canWrite = true)
    {untaken untaken' due : List DocumentEvent}
    (follows : ((machine setup).after moves).session.Follows setup.server.selector c untaken due)
    (turn : untaken' = untaken ∧ (∀ (i : Nat) (e : DocumentEvent), move = .act (.task i) →
        ((machine setup).after moves).session.tasks[i]? = some (.event e .looking) → e.op? = none) ∨
      ∃ (i : Nat) (e : DocumentEvent) (op : SyncOp), move = .act (.task i) ∧
        ((machine setup).after moves).session.tasks[i]? = some (.event e .looking) ∧
        e.op? = some op ∧ e.Whole ∧ untaken = e :: untaken') :
    ((machine setup).after (moves ++ [move])).session.Follows setup.server.selector c untaken' due := by
  rcases turn with ⟨rfl, apart⟩ | ⟨i, e, op, rfl, here, asks, whole, rfl⟩
  · obtain ⟨taken, left, rfl, place, reached⟩ := follows
    cases place with
    | replay i params left here => exact ran.replay_step on can here reached
    | done idle =>
      refine ⟨taken, [], rfl, .done (ran.idle_step idle), fun uri => ?_⟩
      refine ran.reached_apart running can ?_ (reached uri)
      -- nobody acts on documents but for an event, and none is taken
      rintro op ⟨i, task, acts, here, asks⟩ isEvent
      cases op with
      | «open» d =>
        rcases asks with ⟨p, rfl, holds⟩ | rfl
        · exact idle i p here holds
        · simpa [DocumentEvent.op?] using apart i _ acts here
      | change change =>
        obtain rfl : task = .event (.changed change) .looking := asks
        simpa [DocumentEvent.op?] using apart i _ acts here
      | close uri =>
        obtain rfl : task = .event (.closed uri) .looking := asks
        simpa [DocumentEvent.op?] using apart i _ acts here
      | _ => exact isEvent
  · have was := ran.was_running running
    have could := (change_after moves (.act (.task i))).canWrite c can
    have kept : ((machine setup).after moves).session.sync.kind ≠ .none := by
      rw [ran.sync_kind]
      exact on
    -- the event that is looked at holds the lock, so no replay is under way
    have idle := (locked_after moves).idle_of_looking here
    obtain ⟨taken, rfl, reached⟩ := follows.of_looking (locked_after moves) here
    obtain ⟨s₁, p, made, result, sync, conversation⟩ := ran.event_made was could here asks
    refine ⟨taken ++ [e], [], by simp, .done (ran.idle_step idle), fun uri => ?_⟩
    have read := (reached uri).made kept (covered_after moves) whole asks
    rw [selector_after] at read
    rw [sync, conversation, DocumentSelector.readAll_append]
    exact read

end Scene

end LanguageClient
