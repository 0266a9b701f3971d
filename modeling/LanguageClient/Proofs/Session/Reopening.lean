import LanguageClient.Proofs.Host.Reopening
import LanguageClient.Proofs.Session.HostAgreement
/-!
# Documents that are opened again in a running session

When the editor opens a document again that is open already, a session that has announced it takes no
notice, just as any other reader of events (`Host.Reopened`).  So from the moment that a session has all
documents of the host, it tells the server what a reader of the events has (`Tracks`), and it refuses
only edits that are too old for such a reader (`Excused`).
-/

namespace LanguageClient.Relay

variable {setup : Scene.Setup} {first more moves : List Move} {move : Move} {r₀ r r' : Relay}
  {made : Scene.Move} {since : List DocumentEvent} {t c : Nat} {kind : SyncKind}

/-- The session is done with all events, and with the documents that were open before. -/
structure Ready (r : Relay) : Prop where
  queue : r.queue = []
  idle : r.isIdle = true
  listed : ∀ (t : Nat) (p : StartPhase), r.scene.session.tasks[t]? = some (.start p) →
    ¬ (Task.start p).HoldsSync

theorem Settled.ready (settled : r.Settled) : r.Ready :=
  ⟨settled.queue, settled.idle, fun _ _ here => settled.told _ (List.mem_of_getElem? here)⟩

theorem history_concat (moves : List Move) (move : Move) :
    ((machine setup).after (moves ++ [move])).history =
      ((machine setup).after moves).history ++ ((machine setup).after moves).emitted move := by
  have effect := effect_after setup moves move
  generalize (machine setup).after (moves ++ [move]) = r' at effect
  generalize ((machine setup).after moves).sceneMove? move = made at effect
  generalize ((machine setup).after moves).emitted move = events at effect
  cases effect <;> simp

/-- How a session stands to the events that were given out since a moment at which it had all documents of
    the host: it reads them in their order, after what it has read by then. -/
structure Tracks (setup : Scene.Setup) (r₀ r : Relay) (c : Nat) (since : List DocumentEvent) :
    Prop where
  history : r.history = r₀.history ++ since
  emits : Host.Emits (fun _ _ => True) r₀.scene.host.document? since r.scene.host.document?
  taken : ∃ taken, since = taken ++ r.untaken
  follows : ∃ due, (∀ uri, setup.server.selector.readAll uri none due =
      setup.server.selector.editionOf (r₀.scene.host.document? uri)) ∧
    r.scene.session.Follows setup.server.selector c r.untaken (due ++ since)

/-- An edit that was given out since is older than the edition that the session had of its document, for the
    document was opened again. -/
def TooOld (setup : Scene.Setup) (r₀ : Relay) (since : List DocumentEvent) (change : DocumentChange)
    (error : ClientError) : Prop :=
  ∃ before after kept, since = before ++ .changed change :: after ∧
    Host.Reopened setup.server.selector change.uri
      (setup.server.selector.editionOf (r₀.scene.host.document? change.uri)) before kept ∧
    change.version < kept.version ∧ error = .staleVersion change.uri change.version kept.version

/-- Only edits that are too old were refused since. -/
def Excused (setup : Scene.Setup) (r₀ r : Relay) (since : List DocumentEvent) : Prop :=
  ∀ i, r₀.scene.session.tasks.length ≤ i → ∀ change error,
    r.scene.session.tasks[i]? = some (.event (.changed change) (.ended (.error error))) →
    TooOld setup r₀ since change error

theorem TooOld.append {change : DocumentChange} {error : ClientError}
    (old : TooOld setup r₀ since change error) (events : List DocumentEvent) :
    TooOld setup r₀ (since ++ events) change error := by
  obtain ⟨before, after, kept, rfl, reopened, older, stale⟩ := old
  exact ⟨before, after ++ events, kept, by simp, reopened, older, stale⟩

/-! ## The first moment -/

theorem Ready.tracks (ready : ((machine setup).after first).Ready) (opens : OpensAnew setup first)
    (bounded : (machine setup).Always first Bounded)
    (ran : Scene.RanOn setup (path setup first) t c kind) (on : kind ≠ .none)
    (running : ((machine setup).after first).scene.session.state = .running)
    (can : (((machine setup).after first).scene.session.connection c).canWrite = true) :
    Tracks setup ((machine setup).after first) ((machine setup).after first) c [] := by
  have nothing := untaken_eq_nil (orderly_after first) ready.queue ready.idle
  refine ⟨by simp, .nil, ⟨[], by simp [nothing]⟩, ?_⟩
  rcases due_after opens bounded ran on running can with ⟨⟨t, p, here, place⟩, -, -⟩ | due
  · refine absurd ?_ (ready.listed t p here)
    rcases place with ⟨kind, -, rfl⟩ | rfl <;> trivial
  · obtain ⟨due, follows, agrees⟩ := due
    exact ⟨due, agrees, by simpa using follows⟩

theorem excused_nil (setup : Scene.Setup) (r : Relay) : Excused setup r r [] := by
  intro i late change error here
  have inside := (List.getElem?_eq_some_iff.mp here).1
  omega

/-! ## One move -/

theorem Tracks.concat (tracks : Tracks setup r₀ ((machine setup).after moves) c since)
    (ran : Scene.RanOn setup (path setup moves) t c kind) (on : kind ≠ .none)
    (bounded : ((machine setup).after moves).Bounded)
    (named : ((machine setup).after moves).sceneMove? move = some made)
    (running : ((machine setup).after (moves ++ [move])).scene.session.state = .running)
    (can : (((machine setup).after (moves ++ [move])).scene.session.connection c).canWrite = true) :
    Tracks setup r₀ ((machine setup).after (moves ++ [move])) c
      (since ++ ((machine setup).after moves).emitted move) := by
  obtain ⟨taken, split⟩ := tracks.taken
  obtain ⟨due, agrees, follows⟩ := tracks.follows
  have whole : ∀ e ∈ ((machine setup).after moves).untaken, e.Whole :=
    fun e among => tracks.emits.whole e (by simp [split, among])
  constructor
  · rw [history_concat, tracks.history, List.append_assoc]
  · exact tracks.emits.append ((effect_after setup moves move).emits (covered_after moves)
      (fun _ _ => trivial) bounded)
  · rcases untaken_step setup moves move with ⟨more, -⟩ | ⟨none, e, next, -⟩
    · exact ⟨taken, by rw [more, split, List.append_assoc]⟩
    · exact ⟨taken ++ [e], by rw [none, split, next]; simp⟩
  · refine ⟨due, agrees, ?_⟩
    rw [← List.append_assoc]
    exact follows_concat follows whole ran on named running can

theorem Tracks.tooOld (tracks : Tracks setup r₀ ((machine setup).after moves) c since)
    {i : Nat} {change : DocumentChange} {error : ClientError} {untaken : List DocumentEvent}
    (here : ((machine setup).after moves).scene.session.tasks[i]? =
      some (.event (.changed change) .looking))
    (next : ((machine setup).after moves).untaken = .changed change :: untaken)
    (stale : ((machine setup).after moves).scene.session.sync.step (.change change) =
      (.refused error, ((machine setup).after moves).scene.session.sync)) :
    TooOld setup r₀ since change error := by
  obtain ⟨taken, split⟩ := tracks.taken
  obtain ⟨due, agrees, follows⟩ := tracks.follows
  have locked : ((machine setup).after moves).scene.session.Locked := by
    rw [scene_after]
    exact Scene.locked_after _
  obtain ⟨read, same, reached⟩ := follows.of_looking locked here
  -- the change itself is the next event to be read
  have all : read = due ++ taken := by
    rw [split, ← List.append_assoc] at same
    exact (List.append_cancel_right same).symm
  have effect := DocumentSync.step_transition (@covered_after setup moves) (.change change)
  rw [stale] at effect
  cases effect with
  | refused _ lastSent announced older =>
    have reader := reached change.uri
    rw [all, DocumentSelector.readAll_append, agrees] at reader
    cases had : setup.server.selector.readAll change.uri
        (setup.server.selector.editionOf (r₀.scene.host.document? change.uri)) taken with
    -- a document nobody knows is not refused, but passed over
    | none =>
      have unknown := reader.isAnnounced
      simp [had, DocumentSync.isAnnounced, Table.has, announced] at unknown
    | some kept =>
      rw [had] at reader
      rw [reader.newestVersion announced] at older ⊢
      rw [next] at split
      have emits := tracks.emits
      rw [split] at emits
      exact ⟨taken, untaken, kept, split,
        emits.reopened_of_older (Host.inStep_editionOf _ _) had older, older, rfl⟩

theorem Excused.concat (excused : Excused setup r₀ ((machine setup).after moves) since)
    (tracks : Tracks setup r₀ ((machine setup).after moves) c since)
    (ran : Scene.RanOn setup (path setup moves) t c kind)
    (named : ((machine setup).after moves).sceneMove? move = some made)
    (running : ((machine setup).after (moves ++ [move])).scene.session.state = .running)
    (can : (((machine setup).after (moves ++ [move])).scene.session.connection c).canWrite = true) :
    Excused setup r₀ ((machine setup).after (moves ++ [move]))
      (since ++ ((machine setup).after moves).emitted move) := by
  intro i late change error here'
  have was := was_running ran running
  have could := could_write can
  have on : ((machine setup).after moves).scene.session.On c := by
    rw [scene_after]
    exact ran.on
  rw [scene_concat named, Machine.after_concat, ← scene_after] at here'
  -- the event had its error already, it is new, or its step has just refused it
  rcases event_at (covered_after moves) made here' with here | ⟨rfl, born⟩ | ⟨q, s₁, rfl, here, step⟩
  · exact (excused i late change error here).append _
  · subst born
    simp [Scene.step, Scene.spawn, Session.spawn] at here'
  · generalize place : EventPhase.ended (.error error) = p at step
    cases step with
    | refused _ _ error' _ stale =>
      obtain rfl : error = error' := by simpa using place
      -- a change that is refused is taken, so it is the next event
      rcases untaken_step setup moves move with ⟨-, apart⟩ | ⟨-, e, next, takes⟩
      · exact absurd (apart i _ named here) (by simp [DocumentEvent.op?])
      · cases takes with
        | dropped idle => exact absurd was idle
        | read j acts there asks =>
          obtain rfl : i = j := by simpa using named.symm.trans acts
          obtain rfl : .changed change = e := by simpa using here.symm.trans there
          exact (tracks.tooOld here next stale).append _
    | failed _ c' _ _ held cannot =>
      -- the connection in use can be written on, so that nothing fails here
      have holds : (Task.event (.changed change) q).HoldsSync ∧
          (Task.event (.changed change) q).connection? = some c' := by
        rcases held with ⟨params, rfl⟩ | ⟨n, rfl⟩ <;> exact ⟨trivial, rfl⟩
      obtain rfl := on.held i _ c' here holds.1 holds.2
      simp [could] at cannot
    | asked _ _ _ _ next =>
      rcases next with ⟨-, rfl⟩ | ⟨-, language, rfl⟩ <;> simp at place
    | ahead _ _ _ _ _ _ next =>
      rcases next with ⟨uri, reason, -, rfl, -⟩ | ⟨uri, text, -, rfl, -⟩ | ⟨rfl, -⟩ <;> simp at place
    | _ => simp at place

/-! ## All moves -/

/-- Since a moment at which a session has all documents of the host, it reads all events in order, and
    refuses only edits that are too old. -/
theorem tracks_after (opens : OpensAnew setup first)
    (bounded : (machine setup).Always (first ++ more) Bounded)
    (ready : ((machine setup).after first).Ready)
    (began : Scene.RanOn setup (path setup first) t c kind) (on : kind ≠ .none)
    (running : ((machine setup).after (first ++ more)).scene.session.state = .running)
    (can : (((machine setup).after (first ++ more)).scene.session.connection c).canWrite = true) :
    ∃ since, Tracks setup ((machine setup).after first) ((machine setup).after (first ++ more)) c since ∧
      Excused setup ((machine setup).after first) ((machine setup).after (first ++ more)) since := by
  induction more using List.reverseRecOn with
  | nil =>
    rw [List.append_nil] at bounded running can ⊢
    exact ⟨[], ready.tracks opens bounded began on running can, excused_nil _ _⟩
  | append_singleton more move ih =>
    rw [← List.append_assoc] at bounded running can ⊢
    have earlier := (Machine.always_concat.mp bounded).1
    have ran := ran_append began more
    obtain ⟨since, tracks, excused⟩ := ih earlier (was_running ran running) (could_write can)
    cases named : ((machine setup).after (first ++ more)).sceneMove? move with
    | none =>
      rw [after_concat_of_none named]
      exact ⟨since, tracks, excused⟩
    | some made =>
      exact ⟨_, tracks.concat ran on earlier.now named running can,
        excused.concat tracks ran named running can⟩

/-- **A document that is opened again.**  The editor does anything from a moment on at which a session runs
    and has all documents of the host, with versions below the last one; `since` are the events that are
    given out.  As long as the session runs with a connection that can be written on:

    * when everything is settled, the server has the text of each document that was announced to it,
      unless the document was opened again and nothing has got past the edition that the session had by
      then; in that case the server has the text of this edition;
    * an edit is refused only in that case, when its version is below that of the edition. -/
theorem agreement_unless_reopened (opens : OpensAnew setup first)
    (bounded : (machine setup).Always (first ++ more) Bounded)
    (ready : ((machine setup).after first).Ready)
    (began : ((machine setup).after first).scene.session.state = .running)
    (running : ((machine setup).after (first ++ more)).scene.session.state = .running)
    (used : ((machine setup).after (first ++ more)).scene.session.current = some c)
    (can : (((machine setup).after (first ++ more)).scene.session.connection c).canWrite = true)
    (on : ((machine setup).after (first ++ more)).scene.session.sync.kind ≠ .none) :
    let r₀ := (machine setup).after first
    let r := (machine setup).after (first ++ more)
    let selector := setup.server.selector
    let begins := fun uri => selector.editionOf (r₀.scene.host.document? uri)
    ∃ since, r.history = r₀.history ++ since ∧
      (r.Settled → ∀ uri,
        (r.scene.session.sync.isAnnounced uri = true →
          (∀ kept, ¬ Host.Reopened selector uri (begins uri) since kept) →
          ∃ d, r.scene.host.document? uri = some d ∧
            serverState uri (r.scene.session.told c) = some (.opened (some d.text))) ∧
        ∀ kept, Host.Reopened selector uri (begins uri) since kept →
          r.scene.session.sync.isAnnounced uri = true ∧
            serverState uri (r.scene.session.told c) = some (.opened (some kept.text))) ∧
      ∀ i, r₀.scene.session.tasks.length ≤ i → ∀ change error,
        r.scene.session.tasks[i]? = some (.event (.changed change) (.ended (.error error))) →
        ∃ before after kept, since = before ++ .changed change :: after ∧
          Host.Reopened selector change.uri (begins change.uri) before kept ∧
          change.version < kept.version ∧
          error = .staleVersion change.uri change.version kept.version := by
  intro r₀ r selector begins
  obtain ⟨t, c', kind, ran⟩ : ∃ t c kind, Scene.RanOn setup (path setup first) t c kind := by
    rw [scene_after] at began
    exact (Scene.quiet_or_ranOn _).resolve_left fun quiet => quiet.idle began
  have ran' := ran_append ran more
  rw [scene_after] at used on
  obtain rfl := ran'.on.current c used
  rw [ran'.sync_kind] at on
  obtain ⟨since, tracks, excused⟩ := tracks_after opens bounded ready ran on running can
  refine ⟨since, tracks.history, fun settled uri => ?_, excused⟩
  -- nothing is on the way, so all events since have been read
  have reached : Reached r.scene.session.sync (r.scene.session.told c) uri
      (selector.readAll uri (begins uri) since) := by
    obtain ⟨due, agrees, follows⟩ := tracks.follows
    have read := settled.reached follows uri
    rwa [DocumentSelector.readAll_append, agrees] at read
  constructor
  · intro announced never
    -- the edition is in step with the host, or the document was opened again
    rcases tracks.emits.inStep selector (Host.inStep_editionOf selector _) with inStep | ⟨kept, reopened⟩
    · rw [reached.isAnnounced] at announced
      obtain ⟨edition, had⟩ := Option.isSome_iff_exists.mp announced
      rw [had] at reached inStep
      obtain ⟨d, there, rfl⟩ : ∃ d, r.scene.host.document? uri = some d ∧ d.edition = edition := by
        simpa [Host.InStep, eq_comm] using inStep
      exact ⟨d, there, reached.serverState_eq (settled.released uri)⟩
    · exact absurd reopened (never kept)
  · intro kept reopened
    rw [reopened.readAll] at reached
    exact ⟨reached.isAnnounced, reached.serverState_eq (settled.released uri)⟩

/-- The session is told of the next event, and its task takes some steps. -/
def handled (t n : Nat) : List Move :=
  .passOn :: (Scene.steps t n).map .other

/-- The session has begun to run. -/
def sessionBegun : List Move :=
  Scene.began.map .other

/-- A document is opened, opened again with an older version, and edited. -/
def openedAgain : List Move :=
  .opens ⟨"file:///a.rs", "rust", 5, "fn a"⟩ :: handled 2 3 ++
    .opens ⟨"file:///a.rs", "rust", 1, "fn b"⟩ :: handled 3 2 ++
    .edits "file:///a.rs" "fn c" :: handled 4 2

/-- Another document is opened and edited. -/
def otherEdited : List Move :=
  .opens ⟨"file:///b.rs", "rust", 1, "fn a"⟩ :: handled 5 3 ++
    .edits "file:///b.rs" "fn b" :: handled 6 2 ++
    (.pass 100 :: Scene.steps 7 4).map .other

/-- The edit that a task was for, and why it was refused. -/
def refusal? : Task → Option (DocumentChange × ClientError)
  | .event (.changed change) (.ended (.error error)) => some (change, error)
  | _ => none

theorem eq_of_refusal? {task? : Option Task} {change : DocumentChange} {error : ClientError}
    (refused : task?.bind refusal? = some (change, error)) :
    task? = some (.event (.changed change) (.ended (.error error))) := by
  obtain ⟨task, rfl, same⟩ := Option.bind_eq_some_iff.mp refused
  unfold refusal? at same
  split at same
  · simpa using same
  · simp at same

/-- The document was opened again and edited, and everything is settled: the edit was refused, and the
    server has the text that the document was opened with first. -/
theorem reopened_text_unsent :
    let r₀ := (machine Scene.wholeTexts).after sessionBegun
    let r := (machine Scene.wholeTexts).after (sessionBegun ++ openedAgain)
    r₀.Ready ∧ r₀.scene.session.state = .running ∧ r.Settled ∧
    r.scene.session.state = .running ∧ r.scene.session.current = some 0 ∧
    (r.scene.session.connection 0).canWrite = true ∧ r.scene.session.sync.kind = .full ∧
    r.scene.session.sync.isAnnounced "file:///a.rs" = true ∧
    r.scene.host.document? "file:///a.rs" = some ⟨"file:///a.rs", "rust", 2, "fn c"⟩ ∧
    serverState "file:///a.rs" (r.scene.session.told 0) = some (.opened (some "fn a")) ∧
    r.scene.session.tasks[4]?.bind refusal? =
      some (⟨"file:///a.rs", 2, [.full "fn c"], "fn c"⟩, .staleVersion "file:///a.rs" 2 5) := by
  have begun : ((machine Scene.wholeTexts).after sessionBegun).Settled :=
    settled_of_atRest (by decide +kernel)
  have settled : ((machine Scene.wholeTexts).after (sessionBegun ++ openedAgain)).Settled :=
    settled_of_atRest (by decide +kernel)
  refine ⟨begun.ready, ?_, settled, ?_⟩ <;> decide +kernel

/-- What was given out since. -/
def given : List DocumentEvent :=
  [.opened ⟨"file:///a.rs", "rust", 5, "fn a"⟩, .opened ⟨"file:///a.rs", "rust", 1, "fn b"⟩,
    .changed ⟨"file:///a.rs", 2, [.full "fn c"], "fn c"⟩,
    .opened ⟨"file:///b.rs", "rust", 1, "fn a"⟩,
    .changed ⟨"file:///b.rs", 2, [.full "fn b"], "fn b"⟩]

theorem agreement_unless_reopened_bothWays :
    let r := (machine Scene.wholeTexts).after (sessionBegun ++ (openedAgain ++ otherEdited))
    r.history = given ∧ r.Settled ∧
    serverState "file:///a.rs" (r.scene.session.told 0) = some (.opened (some "fn a")) ∧
    (∃ d, r.scene.host.document? "file:///b.rs" = some d ∧
      serverState "file:///b.rs" (r.scene.session.told 0) = some (.opened (some d.text))) ∧
    ∃ before after kept, given =
      before ++ .changed ⟨"file:///a.rs", 2, [.full "fn c"], "fn c"⟩ :: after ∧
      Host.Reopened Scene.wholeTexts.server.selector "file:///a.rs" none before kept := by
  have opens : OpensAnew Scene.wholeTexts sessionBegun := by
    rintro before d later split
    have among : Move.opens d ∈ sessionBegun := by simp [split]
    simp [sessionBegun] at among
  have bounded : (machine Scene.wholeTexts).Always (sessionBegun ++ (openedAgain ++ otherEdited)) Bounded :=
    Machine.always_iff.mpr (by decide +kernel)
  have begun : ((machine Scene.wholeTexts).after sessionBegun).Settled :=
    settled_of_atRest (by decide +kernel)
  have settled :
      ((machine Scene.wholeTexts).after (sessionBegun ++ (openedAgain ++ otherEdited))).Settled :=
    settled_of_atRest (by decide +kernel)
  have agreement := @agreement_unless_reopened Scene.wholeTexts sessionBegun (openedAgain ++ otherEdited) 0
    opens bounded begun.ready (by decide +kernel)
  generalize same : (machine Scene.wholeTexts).after (sessionBegun ++ (openedAgain ++ otherEdited)) = r
    at agreement settled ⊢
  have runs : r.scene.session.state = .running ∧ r.scene.session.current = some 0 ∧
      (r.scene.session.connection 0).canWrite = true ∧ r.scene.session.sync.kind ≠ .none ∧
      r.history = given ∧ r.scene.session.sync.isAnnounced "file:///b.rs" = true ∧
      r.scene.session.tasks[4]?.bind refusal? = some
        (⟨"file:///a.rs", 2, [.full "fn c"], "fn c"⟩, .staleVersion "file:///a.rs" 2 5) := by
    rw [← same]; decide +kernel
  obtain ⟨run, used, can, on, history, announced, refused⟩ := runs
  obtain ⟨since, split, texts, excused⟩ := agreement run used can on
  have first : ((machine Scene.wholeTexts).after sessionBegun).history = [] ∧
      ((machine Scene.wholeTexts).after sessionBegun).scene.host.documents = [] := by decide +kernel
  have fresh : ∀ uri, ((machine Scene.wholeTexts).after sessionBegun).scene.host.document? uri = none := by
    intro uri
    rw [Host.document?, first.2]
    rfl
  obtain rfl : since = given := by simpa [first.1, history, eq_comm] using split
  simp only [fresh, DocumentSelector.editionOf_none] at texts excused
  have again : Host.Reopened Scene.wholeTexts.server.selector "file:///a.rs" none given
      ⟨5, "fn a"⟩ := by
    refine ⟨[given[0]], ⟨"file:///a.rs", "rust", 1, "fn b"⟩, given.drop 2, rfl, rfl,
      by decide +kernel, fun e among about => ?_⟩
    simp only [given, List.drop_succ_cons, List.drop_zero, List.mem_cons, List.not_mem_nil,
      or_false] at among
    rcases among with rfl | rfl | rfl
    · exact .changed _ (by decide)
    · simp [DocumentEvent.uri] at about
    · simp [DocumentEvent.uri] at about
  have once : ∀ kept, ¬ Host.Reopened Scene.wholeTexts.server.selector "file:///b.rs" none given
      kept := by
    rintro kept ⟨before, d, after, cut, about, had, -⟩
    -- the document is opened by the fourth event only, and no reader has it before
    have opening : given[before.length]? = some (.opened d) := by simp [cut]
    have earlier : before = given.take before.length := by simp [cut]
    have short : before.length < 5 := by
      have := congrArg List.length cut
      simp [given] at this
      omega
    rw [earlier] at had
    generalize before.length = n at opening had short
    interval_cases n
    · simp at had
    · obtain rfl : _ = d := by simpa [given] using opening
      simp at about
    · simp [given] at opening
    · have nothing : Scene.wholeTexts.server.selector.readAll "file:///b.rs" none (given.take 3) =
          none := by decide +kernel
      simp [nothing] at had
    · simp [given] at opening
  obtain ⟨before, after, kept, cut, reopened, -⟩ :=
    excused 4 (by decide +kernel) _ _ (eq_of_refusal? refused)
  exact ⟨history, settled, ((texts settled _).2 _ again).2, (texts settled _).1 announced once,
    before, after, kept, cut, reopened⟩

end LanguageClient.Relay
