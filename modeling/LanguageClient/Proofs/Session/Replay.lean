import LanguageClient.Proofs.Host.Documents
import LanguageClient.Proofs.Session.Negotiation
/-!
# The beginning of what a server is told

When a session begins to run, its start sends `initialized` and then opens the documents of the host,
one after another, in the order of the host (`replayNotices`).  It holds the lock on the documents all
the while (`Change.of_holder`), so nothing comes in between: all that is told of documents comes after
`initialized` (`greeted_after`), and begins with the replay (`RanOn.replaying`).
-/

namespace LanguageClient

/-- The notification that ends the handshake. -/
def initialized : Notification :=
  { method := "initialized", params := some (.obj []) }

/-- The notifications by which a server is told of documents that are open already. -/
def replayNotices (selector : DocumentSelector) (docs : List Document) : List Notification :=
  (docs.filter fun d => selector.selects d.languageId d.uri).map fun d =>
    Session.notice "textDocument/didOpen" (⟨.ofDocument d⟩ : DidOpenParams)

namespace Session

variable {now : Nat} {h h' : Host} {s s' : Session} {t i c : Nat} {task task' : Task}

/-! ## The host's documents -/

theorem TaskStep.documents (step : TaskStep now h s t task h' s' task') :
    h'.documents = h.documents := by
  cases step with
  | start p _ _ p' step =>
    cases step with
    | concluded _ _ _ _ _ _ _ _ next | answered _ _ _ _ _ _ _ _ _ _ _ _ next =>
      cases next with
      | prompted => exact documents_prompt h _ _
      | _ => rfl
    | _ => rfl
  | watch c p _ _ p' step => cases step <;> rfl
  | _ => rfl

theorem Moved.documents (moved : Moved now h s h' s') : h'.documents = h.documents := by
  cases moved with
  | task t task _ s₁ task' here step => exact step.documents
  | served _ _ serves =>
    obtain ⟨c, connection, registry, handlers, passing, diagnostics, documents, -, rfl⟩ := serves
    exact documents

/-! ## What is written -/

theorem Moved.sent_cases (moved : Moved now h s h' s') (c : Nat) :
    ∃ more, (s'.connection c).sent = (s.connection c).sent ++ more ∧
      (documentNotifications more = [] ∨ ∃ (t : Nat) (task : Task) (n : Notification)
        (rest : List Message), s.tasks[t]? = some task ∧ task.speech? = some (c, n) ∧
        (s.connection c).canWrite = true ∧ more = .notification n :: rest ∧
        documentNotifications rest = []) := by
  cases moved with
  | task t task _ s₁ task' here step =>
    obtain ⟨more, wrote, silent | ⟨n, rest, speech, can, split, silent⟩⟩ := step.talk.sent_cases c
    · exact ⟨more, wrote, Or.inl silent⟩
    · exact ⟨more, wrote, Or.inr ⟨t, task, n, rest, here, speech, can, split, silent⟩⟩
  | served _ _ serves =>
    obtain ⟨answers, wrote⟩ := (serves.effect c).sent
    exact ⟨_, wrote, Or.inl (by simp)⟩

theorem Moved.canWrite (moved : Moved now h s h' s') (c : Nat)
    (can : (s'.connection c).canWrite = true) : (s.connection c).canWrite = true := by
  cases moved with
  | task t task _ s₁ task' here step => exact step.talk.canWrite c can
  | served _ _ serves => exact (serves.effect c).canWrite can

/-- While a start holds the lock on the documents, it takes the next step, or nothing is told and the
    bookkeeping stays. -/
theorem Moved.of_holder {p : StartPhase} (moved : Moved now h s h' s') (locked : s.Locked)
    (here : s.tasks[t]? = some (.start p)) (holds : (Task.start p).HoldsSync) :
    (s'.tasks[t]? = some (.start p) ∧ s'.sync = s.sync ∧ ∀ c, s'.told c = s.told c) ∨
    ∃ s₁ p', StartStep now h s t p h' s₁ p' ∧ s' = s₁.setTask t (.start p') ∧
      s'.tasks[t]? = some (.start p') := by
  cases moved with
  | served _ _ serves =>
    have told := serves.told
    obtain ⟨c', connection, registry, handlers, passing, diagnostics, -, -, rfl⟩ := serves
    exact Or.inl ⟨here, rfl, told⟩
  | task i task _ s₁ task' there step =>
    by_cases same : i = t
    · subst same
      obtain rfl : .start p = task := Option.some.inj (here.symm.trans there)
      have here' := step.self here
      cases step with
      | start _ _ _ p' step => exact Or.inr ⟨s₁, p', step, rfl, here'⟩
    · have idle : ¬ task.HoldsSync := fun holds' => same (locked.unique there holds' here holds)
      refine Or.inl ⟨step.other (Ne.symm same) here, ?_, step.told_of_idle idle⟩
      rcases step.sync_use.locked with kept | holds' | free
      · exact kept
      · exact absurd holds' idle
      · simp [locked.holder t _ here holds] at free

/-! ## The replay of the open documents -/

/-- The replay goes on with the first document that the server wants to know of. -/
theorem Announced.replay {docs : List Document} {p : StartPhase} (next : Announced s c docs s' p)
    (on : s.sync.kind ≠ .none) (distinct : Host.Distinct docs)
    (fresh : ∀ d ∈ docs, s.sync.isAnnounced d.uri = false) :
    (s'.told c = s.told c ∧ replayNotices s.sync.selector docs = []) ∨
    ∃ params rest, p = .announcing c params rest ∧ s'.told c = s.told c ∧
      replayNotices s.sync.selector docs =
        notice "textDocument/didOpen" params :: replayNotices s.sync.selector rest ∧
      Host.Distinct rest ∧ ∀ d ∈ rest, s'.sync.isAnnounced d.uri = false := by
  -- the server has none of these documents open, so only the selector passes over one
  have passes : ∀ {d}, d ∈ docs → s.sync.open d = (none, s.sync) →
      s.sync.selector.selects d.languageId d.uri = false := by
    intro d among passed
    by_contra selected
    simp [DocumentSync.open_of_fresh on (fresh d among), selected] at passed
  cases next with
  | finished passed =>
    refine Or.inl ⟨rfl, ?_⟩
    simpa [replayNotices] using fun d among => passes among (passed d among)
  | next skipped d rest params sync split passed told =>
    subst split
    have skips : ∀ d ∈ skipped, s.sync.selector.selects d.languageId d.uri = false :=
      fun d among => passes (by simp [among]) (passed d among)
    have opened := DocumentSync.open_of_fresh on (fresh d (by simp))
    rw [told] at opened
    obtain ⟨rest', others⟩ : Host.Distinct rest ∧ ∀ e ∈ rest, e.uri ≠ d.uri :=
      Host.Distinct.tail (distinct.sublist ((List.sublist_append_right skipped _).map _))
    -- what is told has been selected
    cases selected : s.sync.selector.selects d.languageId d.uri with
    | false => simp [selected] at opened
    | true =>
      obtain ⟨rfl, rfl⟩ : params = ⟨.ofDocument d⟩ ∧
          sync = { s.sync with announced := s.sync.announced.put d.uri d.version } := by
        simpa [selected] using opened
      refine Or.inr ⟨_, rest, rfl, rfl, ?_, rest', fun e among => ?_⟩
      · simp [replayNotices, List.filter_append, List.filter_eq_nil_iff.mpr (by simpa using skips),
          selected]
      · have unknown := fresh e (by simp [among])
        simpa [DocumentSync.isAnnounced, Table.has, Ne.symm (others e among)] using unknown

end Session

namespace Scene

variable {setup : Setup} {moves : List Move} {d d' : Scene} {t c : Nat} {kind : SyncKind}

theorem Edited.distinct {h h' : Host} (edit : Edited h h') (distinct : Host.Distinct h.documents) :
    Host.Distinct h'.documents := by
  cases edit with
  | opened document => exact distinct.insertDocument document
  | edited uri text =>
    cases there : h.document? uri with
    | none => simpa [Host.edit, there] using distinct
    | some document =>
      simpa [Host.edit, there] using distinct.insertDocument (Host.edited document text)
  | closed uri => exact distinct.filter _

/-- No two documents of the host have the same URI. -/
theorem distinct_after (moves : List Move) :
    Host.Distinct ((machine setup).after moves).host.documents := by
  refine run_changes (fun _ d => Host.Distinct d.host.documents) List.nodup_nil ?_ moves
  rintro moves move d d' rfl rfl change distinct
  rcases change.cases with ⟨-, moved⟩ | ⟨-, same | edit⟩
  · rw [moved.documents]
    exact distinct
  · rw [same]
    exact distinct
  · exact edit.distinct distinct

/-- The selector of the bookkeeping is the one of the server's settings. -/
theorem selector_after (moves : List Move) :
    ((machine setup).after moves).session.sync.selector = setup.server.selector := by
  refine run_changes (fun _ d => d.session.sync.selector = setup.server.selector) rfl ?_ moves
  rintro moves move d d' rfl rfl change same
  rw [← same]
  rcases change.cases with ⟨-, moved⟩ | ⟨aside, -⟩
  · rcases moved.sync_cases with kept | ⟨op, stepped⟩
    · rw [kept]
    · rw [stepped]
      exact (DocumentSync.step_transition (covered_after moves) op).selector
  · rw [aside.rest]

theorem Change.sent_cases (change : Change d d') (c : Nat) :
    ∃ more, (d'.session.connection c).sent = (d.session.connection c).sent ++ more ∧
      (documentNotifications more = [] ∨ ∃ (t : Nat) (task : Task) (n : Notification)
        (rest : List Message), d.session.tasks[t]? = some task ∧ task.speech? = some (c, n) ∧
        (d.session.connection c).canWrite = true ∧ more = .notification n :: rest ∧
        documentNotifications rest = []) := by
  rcases change.cases with ⟨-, moved⟩ | ⟨aside, -⟩
  · exact moved.sent_cases c
  · refine ⟨[], ?_, Or.inl rfl⟩
    rw [aside.rest, List.append_nil]
    rfl

theorem Change.canWrite (change : Change d d') (c : Nat)
    (can : (d'.session.connection c).canWrite = true) : (d.session.connection c).canWrite = true := by
  rcases change.cases with ⟨-, moved⟩ | ⟨aside, -⟩
  · exact moved.canWrite c can
  · rw [aside.rest] at can
    exact can

theorem Change.told_grows (change : Change d d') (c : Nat) :
    d.session.told c <+: d'.session.told c := by
  obtain ⟨more, wrote, -⟩ := change.sent_cases c
  exact ⟨documentNotifications more, by simp [Session.told, wrote]⟩

theorem Change.of_holder {p : StartPhase} (change : Change d d') (locked : d.session.Locked)
    (here : d.session.tasks[t]? = some (.start p)) (holds : (Task.start p).HoldsSync) :
    (d'.session.tasks[t]? = some (.start p) ∧ d'.session.sync = d.session.sync ∧
      ∀ c, d'.session.told c = d.session.told c) ∨
    ∃ s₁ p', Session.StartStep d.now d.host d.session t p d'.host s₁ p' ∧
      d'.session = s₁.setTask t (.start p') ∧ d'.session.tasks[t]? = some (.start p') := by
  rcases change.cases with ⟨-, moved⟩ | ⟨aside, -⟩
  · exact moved.of_holder locked here holds
  · refine Or.inl ⟨aside.kept here, ?_, fun c => ?_⟩ <;> rw [aside.rest]
    rfl

/-! ## After `initialized` -/

/-- Whatever a server is told of documents, it has got `initialized` before. -/
def Greeted (sent : List Message) : Prop :=
  ∀ before m after, sent = before ++ m :: after → m.documentNotification?.isSome = true →
    .notification initialized ∈ before

theorem Greeted.append {sent more : List Message} (greeted : Greeted sent)
    (next : documentNotifications more = [] ∨ .notification initialized ∈ sent) :
    Greeted (sent ++ more) := by
  intro before m after split about
  have new : m ∈ more → sent <+: before → .notification initialized ∈ before := by
    intro among begins
    rcases next with silent | there
    · have none := List.filterMap_eq_nil_iff.mp silent m among
      simp [none] at about
    · exact begins.subset there
  rcases List.append_eq_append_iff.mp split with ⟨between, rfl, rfl⟩ | ⟨between, rfl, rest⟩
  · exact new (by simp) (List.prefix_append _ _)
  · cases between with
    | nil =>
      obtain rfl : m :: after = more := rest
      exact new (by simp) (by simp)
    | cons first between =>
      obtain ⟨rfl, rfl⟩ := List.cons.inj rest
      exact greeted before _ between rfl about

theorem Change.mute_stays (change : Change d d') (c : Nat)
    (cannot : (d.session.connection c).canWrite = false) :
    (d'.session.connection c).canWrite = false := by
  by_contra can
  simp [change.canWrite c (by simpa using can)] at cannot

/-- The start that makes the session running is about to send `initialized`, it has sent it, or nothing
    can be sent any more. -/
theorem RanOn.greeting (ran : RanOn setup moves t c kind) :
    ((machine setup).after moves).session.tasks[t]? = some (.start (.greeting c kind)) ∨
      .notification initialized ∈ (((machine setup).after moves).session.connection c).sent ∨
      (((machine setup).after moves).session.connection c).canWrite = false := by
  refine ran_induction (fun _ d => d.session.tasks[t]? = some (.start (.greeting c kind)) ∨
    .notification initialized ∈ (d.session.connection c).sent ∨
    (d.session.connection c).canWrite = false) ?_ ?_ ran
  · exact fun moves move quiet step => Or.inl step.here
  · rintro moves move d d' rfl rfl ran change (here | got | cannot)
    · rcases change.of_holder (locked_after moves) here trivial with
        ⟨same, -⟩ | ⟨s₁, p', step, stepped, -⟩
      · exact Or.inl same
      -- the greeting is written by this step, or the connection cannot be written on
      · have inside := ran.on.inside
        generalize ((machine setup).after (moves ++ [move])).host = h' at step
        cases step with
        | greeted | greetedOnly =>
          refine Or.inr (Or.inl ?_)
          rw [stepped]
          simp [Session.setTask, Session.unlockStart, Session.unlockSync, Session.writes,
            Session.onConnection, Session.setConnection, Session.connection, inside, initialized]
        | unwritten _ _ e place cannot =>
          rcases place with ⟨kind', place⟩ | ⟨params, rest, place⟩
          · obtain ⟨rfl, -⟩ := by simpa using place
            exact Or.inr (Or.inr (change.mute_stays _ cannot))
          · simp at place
        | retried _ _ _ _ _ place | gaveUp _ _ _ _ place => simp at place
    · obtain ⟨more, wrote, -⟩ := change.sent_cases c
      exact Or.inr (Or.inl (by rw [wrote]; exact List.mem_append_left _ got))
    · exact Or.inr (Or.inr (change.mute_stays c cannot))

/-- All that is told of documents on a connection comes after `initialized`. -/
theorem RanOn.greeted (ran : RanOn setup moves t c kind) :
    Greeted (((machine setup).after moves).session.connection c).sent := by
  refine ran_induction (fun _ d => Greeted (d.session.connection c).sent) ?_ ?_ ran
  · intro moves move quiet step before m after split about
    have untold := (step.told c).trans (quiet.silent c)
    have none := List.filterMap_eq_nil_iff.mp untold m (by rw [split]; simp)
    simp [none] at about
  · rintro moves move d d' rfl rfl ran change greeted
    obtain ⟨more, wrote, said⟩ := change.sent_cases c
    rw [wrote]
    refine greeted.append ?_
    rcases said with silent | ⟨i, task, n, rest, there, speech, can, rfl, silent⟩
    · exact Or.inl silent
    cases about : n.kind? with
    | none =>
      refine Or.inl ?_
      simpa [documentNotifications, Message.documentNotification?, about] using silent
    | some kind' =>
      rcases ran.greeting with here | got | cannot
      · -- the start that is about to send `initialized` has the lock
        obtain ⟨holds, -, -⟩ := Task.holds_of_speech speech about
        obtain rfl := (locked_after moves).unique there holds here trivial
        obtain rfl : task = .start (.greeting c kind) := Option.some.inj (there.symm.trans here)
        obtain rfl : initialized = n := by simpa [Task.speech?, initialized] using speech
        simp [Notification.kind?, NoticeKind.ofMethod?, initialized] at about
      · exact Or.inr got
      · simp [can] at cannot

/-- Whatever is told of documents on a connection comes after `initialized`. -/
theorem greeted_after (moves : List Move) (c : Nat) :
    Greeted (((machine setup).after moves).session.connection c).sent := by
  have untold : ((machine setup).after moves).session.told c = [] →
      Greeted (((machine setup).after moves).session.connection c).sent := by
    intro untold before m after split about
    have none := List.filterMap_eq_nil_iff.mp untold m (by rw [split]; simp)
    simp [none] at about
  rcases quiet_or_ranOn moves with quiet | ⟨t, c', kind, ran⟩
  · exact untold (quiet.silent c)
  · by_cases same : c = c'
    · subst same
      exact ran.greeted
    · exact untold (ran.on.silent c same)

/-! ## The replay -/

/-- The start that makes the session running has taken the list of the open documents. -/
def Listed (setup : Setup) (moves : List Move) (t c : Nat) (docs : List Document) : Prop :=
  ∃ before move later, moves = before ++ move :: later ∧
    ((machine setup).after before).session.tasks[t]? = some (.start (.listing c)) ∧
    ((machine setup).after before).host.documents = docs ∧
    ((machine setup).after (before ++ [move])).session.tasks[t]? ≠ some (.start (.listing c))

theorem Listed.append {docs : List Document} (listed : Listed setup moves t c docs)
    (more : List Move) : Listed setup (moves ++ more) t c docs := by
  obtain ⟨before, move, later, rfl, here, same, gone⟩ := listed
  exact ⟨before, move, later ++ more, by simp, here, same, gone⟩

/-- Where the replay stands that a start of a session makes. -/
inductive Replaying (setup : Setup) (moves : List Move) (t c : Nat) (d : Scene) : Prop where
  | waiting (p : StartPhase) (here : d.session.tasks[t]? = some (.start p))
      (place : (∃ kind, kind ≠ .none ∧ p = .greeting c kind) ∨ p = .listing c)
      (untold : d.session.told c = [])
      (closed : ∀ uri, d.session.sync.isAnnounced uri = false)
  | telling (docs : List Document) (params : DidOpenParams) (rest : List Document)
      (listed : Listed setup moves t c docs)
      (here : d.session.tasks[t]? = some (.start (.announcing c params rest)))
      (split : replayNotices setup.server.selector docs =
        d.session.told c ++ Session.notice "textDocument/didOpen" params ::
          replayNotices setup.server.selector rest)
      (distinct : Host.Distinct rest) (fresh : ∀ e ∈ rest, d.session.sync.isAnnounced e.uri = false)
  | told (docs : List Document) (listed : Listed setup moves t c docs)
      (begins : replayNotices setup.server.selector docs <+: d.session.told c)
  | cut (cannot : (d.session.connection c).canWrite = false)
      (begins : d.session.told c = [] ∨ ∃ docs, Listed setup moves t c docs ∧
        d.session.told c <+: replayNotices setup.server.selector docs)

/-- The replay goes on with the first document that is left. -/
theorem Replaying.of_announced {docs left : List Document} {s s' : Session} {p : StartPhase}
    (next : Session.Announced s c left s' p) (listed : Listed setup moves t c docs)
    (selector : s.sync.selector = setup.server.selector) (on : s.sync.kind ≠ .none)
    (distinct : Host.Distinct left) (fresh : ∀ e ∈ left, s.sync.isAnnounced e.uri = false)
    (split : replayNotices setup.server.selector docs =
      s.told c ++ replayNotices setup.server.selector left)
    (result : d.session = s'.setTask t (.start p)) (here : d.session.tasks[t]? = some (.start p)) :
    Replaying setup moves t c d := by
  have sync : d.session.sync = s'.sync := by rw [result]; rfl
  have told : d.session.told c = s'.told c := by rw [result]; rfl
  rcases next.replay on distinct fresh with
    ⟨same, none⟩ | ⟨params, rest, rfl, same, more, distinct', fresh'⟩
  · refine .told docs listed ?_
    rw [split, ← selector, none, told, same]
    simp
  · refine .telling docs params rest listed here ?_ distinct' (sync ▸ fresh')
    rw [split, ← selector, more, told, same]

/-- The server is told of the open documents before anything else. -/
theorem RanOn.replaying (ran : RanOn setup moves t c kind) (on : kind ≠ .none) :
    Replaying setup moves t c ((machine setup).after moves) := by
  refine ran_induction (fun moves d => Replaying setup moves t c d) ?_ ?_ ran
  · intro moves move quiet step
    refine .waiting _ step.here (Or.inl ⟨kind, on, rfl⟩) ((step.told c).trans (quiet.silent c)) ?_
    rw [step.sync]
    exact quiet.closed
  · rintro moves move d d' before after ran change replaying
    have locked := @locked_after setup moves
    have selector := @selector_after setup moves
    have sync_kind := ran.sync_kind
    have distinct := @distinct_after setup moves
    have inside := ran.on.inside
    rw [before] at locked selector sync_kind distinct inside
    -- when the connection cannot be written on, what was told stays as it is
    have mute : (d.session.connection c).canWrite = false → (d.session.told c = [] ∨
        ∃ docs, Listed setup moves t c docs ∧
          d.session.told c <+: replayNotices setup.server.selector docs) →
        Replaying setup (moves ++ [move]) t c d' := by
      intro cannot begins
      have on := ran.on
      rw [before] at on
      have same := (change.mute locked on (Or.inl cannot)).1
      refine .cut (change.mute_stays c cannot) ?_
      rw [same]
      exact begins.imp_right fun ⟨docs, listed, begins⟩ => ⟨docs, listed.append [move], begins⟩
    cases replaying with
    | waiting p here place untold closed =>
      have holds : (Task.start p).HoldsSync := by
        rcases place with ⟨kind, -, rfl⟩ | rfl <;> trivial
      rcases change.of_holder locked here holds with
        ⟨same, sync, told⟩ | ⟨s₁, p', step, result, here'⟩
      · exact .waiting p same place ((told c).trans untold) (sync ▸ closed)
      · generalize d'.host = h' at step
        rcases place with ⟨kind', some, rfl⟩ | rfl
        · cases step with
          | greeted _ _ can =>
            refine .waiting _ here' (Or.inr rfl) ?_ ?_
            · rw [result]
              refine Eq.trans (Session.told_writes inside c) ?_
              simp [untold, documentNotifications, Message.documentNotification?, Notification.kind?,
                NoticeKind.ofMethod?]
            · rw [result]
              exact closed
          | greetedOnly => exact absurd rfl some
          | unwritten _ _ e place cannot =>
            obtain ⟨kind'', same⟩ | ⟨params, rest, same⟩ := place
            · obtain ⟨rfl, -⟩ := by simpa using same
              exact mute cannot (Or.inl untold)
            · simp at same
          | retried _ _ _ _ _ place | gaveUp _ _ _ _ place => simp at place
        · cases step with
          | listed _ _ _ next =>
            have listed : Listed setup (moves ++ [move]) t c d.host.documents := by
              refine ⟨moves, move, [], rfl, before ▸ here, by rw [before], ?_⟩
              rw [after, here']
              cases next <;> simp
            exact .of_announced next listed selector (sync_kind ▸ on) distinct
              (fun e _ => closed e.uri) (by rw [untold]; rfl) result here'
          | retried _ _ _ _ _ place | gaveUp _ _ _ _ place | unwritten _ _ _ place => simp at place
    | telling docs params rest listed here split distinct fresh =>
      rcases change.of_holder locked here trivial with
        ⟨same, sync, told⟩ | ⟨s₁, p', step, result, here'⟩
      · exact .telling docs params rest (listed.append [move]) same (told c ▸ split) distinct
          (sync ▸ fresh)
      · generalize d'.host = h' at step
        cases step with
        | announced _ _ _ _ _ can next =>
          refine .of_announced next (listed.append [move]) selector (sync_kind ▸ on) distinct fresh ?_
            result here'
          have told := Session.told_writes_notification (c := c) inside
            ⟨_, (Notification.tells_didOpen params).kind⟩
          rw [told, split]
          simp
        | unwritten _ _ e place cannot =>
          obtain ⟨kind'', same⟩ | ⟨params', rest', same⟩ := place
          · simp at same
          · obtain ⟨rfl, -⟩ := by simpa using same
            exact mute cannot (Or.inr ⟨docs, listed, split ▸ List.prefix_append _ _⟩)
        | retried _ _ _ _ _ place | gaveUp _ _ _ _ place => simp at place
    | told docs listed begins =>
      exact .told docs (listed.append [move]) (begins.trans (change.told_grows c))
    | cut cannot begins => exact mute cannot begins

end Scene

end LanguageClient
