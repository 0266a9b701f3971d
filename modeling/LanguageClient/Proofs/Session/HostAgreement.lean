import LanguageClient.Proofs.Session.Coalescing
import LanguageClient.Proofs.Session.DocumentTraffic
import LanguageClient.Proofs.Session.Following
import LanguageClient.Proofs.Session.Relay
/-!
# The server has what the host has

Documents reach a server in two ways: a start replays those that are open, and from then on the session
follows the events of the editor.  Some of these are older than the list that the start has taken, but
whoever has the documents as they are loses nothing by reading them (`Host.Emits.readAll_late`).  So
what is due to be read always leads to the documents of the host (`due_after`), and when nothing is on
the way any more, the server has them (`host_agreement`).
-/

namespace LanguageClient.Relay

variable {setup : Scene.Setup} {moves : List Move} {move : Move} {r r' : Relay}
  {may : (String → Option Document) → DocumentEvent → Prop} {made : Option Scene.Move}
  {events due : List DocumentEvent} {t c : Nat} {kind : SyncKind}

/-! ## The documents of the host -/

/-- The editor opens only what is not open. -/
def OpensAnew (setup : Scene.Setup) (moves : List Move) : Prop :=
  ∀ before d later, moves = before ++ .opens d :: later →
    ((machine setup).after before).scene.host.document? d.uri = none

/-- Versions stay below the last one. -/
def Bounded (r : Relay) : Prop :=
  ∀ d ∈ r.scene.host.documents, d.version < Int32.maxValue

instance (r : Relay) : Decidable r.Bounded :=
  inferInstanceAs (Decidable (∀ d ∈ r.scene.host.documents, d.version < Int32.maxValue))

theorem OpensAnew.of_concat (opens : OpensAnew setup (moves ++ [move])) : OpensAnew setup moves :=
  fun before d later split => opens before d (later ++ [move]) (by simp [split])

/-- A move that is no editing leaves the documents. -/
theorem step_documents {d : Scene} {made : Scene.Move} (covered : d.session.sync.Covered)
    (apart : made.isApart = true) : (d.step made).host.documents = d.host.documents := by
  cases made with
  | openDocument | editDocument | closeDocument => simp [Scene.Move.isApart] at apart
  | start | stop | event | query | request | fire | pass | feed | hangUp | deafen | stall => rfl
  | act actor =>
    cases stepped : d.session.step d.now d.host actor with
    | none => simp [Scene.step, stepped, Scene.touch]
    | some result =>
      have same : result.1.documents = d.host.documents := by
        by_cases task : ∃ i, actor = .task i
        · obtain ⟨i, rfl⟩ := task
          obtain ⟨task, s₁, task', -, step, -⟩ := Session.stepTask_cases covered stepped
          exact step.documents
        · obtain ⟨c, connection, registry, handlers, passing, diagnostics, same, -⟩ :=
            Session.serves_step (fun i same => task ⟨i, same⟩) stepped
          exact same
      simpa [Scene.step, stepped, Scene.touch] using same
  | finishFiles c j =>
    cases finished : d.session.finishFiles d.host c j <;> simp [Scene.step, finished, Scene.touch]

/-- What the editor does gives out its event. -/
theorem Edited.emits {d : Scene} {made : Scene.Move} (edit : Edited d.host made events)
    (allowed : ∀ e ∈ events, may d.host.document? e)
    (bounded : ∀ document ∈ d.host.documents, document.version < Int32.maxValue) :
    Host.Emits may d.host.document? events (d.step made).host.document? := by
  -- all but two kinds of edit give out one event
  have one : ∀ {e docs}, may d.host.document? e → Host.Edits d.host.document? e docs →
      Host.Emits may d.host.document? [e] docs := fun allowed edits => .concat [] _ _ _ .nil allowed edits
  cases edit with
  | opened document =>
    have after : (d.step (.openDocument document)).host.document? =
        Function.update d.host.document? document.uri (some document) := by
      funext uri
      rw [Function.update_apply]
      simp [Scene.step, eq_comm]
    rw [after]
    exact one (allowed _ (by simp)) (.opened document)
  | changed uri text change h' edit =>
    obtain ⟨document, there, rfl, documents⟩ := Host.edit_cases edit
    obtain rfl := Host.uri_of_document? there
    have after : (d.step (.editDocument document.uri text)).host.document? =
        Function.update d.host.document? document.uri (some (Host.edited document text)) := by
      funext uri
      rw [Function.update_apply]
      simp [Scene.step, edit, documents, eq_comm]
    rw [after]
    exact one (allowed _ (by simp))
      (.changed document text there (bounded document (List.mem_of_find?_eq_some there)))
  | unchanged uri text unknown =>
    have same : (d.step (.editDocument uri text)).host = d.host := by simp [Scene.step, unknown]
    rw [same]
    exact .nil
  | closed uri =>
    have after : (d.step (.closeDocument uri)).host.document? =
        Function.update d.host.document? uri none := by
      funext other
      rw [Function.update_apply]
      simp [Scene.step, eq_comm]
    rw [after]
    exact one (allowed _ (by simp)) (.closed uri)
  -- nothing of that name is open, so nothing changes
  | unclosed uri unknown =>
    have same : (d.step (.closeDocument uri)).host.document? = d.host.document? := by
      funext other
      simp only [Scene.step, Host.document?_close]
      split
      · rename_i about
        rw [← about, unknown]
      · rfl
    rw [same]
    exact .nil

/-- The documents after a move come from those before by the edits whose events it gives out. -/
theorem Effect.emits (effect : Effect r made events r') (covered : r.scene.session.sync.Covered)
    (allowed : ∀ e ∈ events, may r.scene.host.document? e) (bounded : r.Bounded) :
    Host.Emits may r.scene.host.document? events r'.scene.host.document? := by
  have same : ∀ {h : Host}, h.documents = r.scene.host.documents →
      Host.Emits may r.scene.host.document? [] h.document? := by
    intro h same
    have : h.document? = r.scene.host.document? := by
      funext uri
      rw [Host.document?, same, Host.document?]
    rw [this]
    exact .nil
  cases effect with
  | stayed => exact .nil
  | edited made _ edit => exact edit.emits allowed bounded
  | passed e queue idle first => exact same rfl
  | moved made apart => exact same (step_documents covered apart)

/-- An opening is a move of its own. -/
theorem eq_opens_of_emitted {d : Document} (among : .opened d ∈ r.emitted move) : move = .opens d := by
  cases move <;> simp_all [emitted]

theorem emits_step (opens : OpensAnew setup (moves ++ [move]))
    (bounded : ((machine setup).after moves).Bounded) :
    Host.Emits Host.Anew ((machine setup).after moves).scene.host.document?
      (((machine setup).after moves).emitted move)
      ((machine setup).after (moves ++ [move])).scene.host.document? := by
  refine (effect_after setup moves move).emits (covered_after moves) ?_ bounded
  rintro _ among document rfl
  obtain rfl := eq_opens_of_emitted among
  exact opens moves document [] rfl

/-- The events that were not taken are those of some edits that lead to the documents of the host. -/
theorem emits_after (opens : OpensAnew setup moves) (bounded : (machine setup).Always moves Bounded) :
    ∃ docs, Host.Emits Host.Anew docs ((machine setup).after moves).untaken
      ((machine setup).after moves).scene.host.document? := by
  induction moves using List.reverseRecOn with
  | nil => exact ⟨_, .nil⟩
  | append_singleton moves move ih =>
    have bounded := (Machine.always_concat.mp bounded).1
    obtain ⟨docs, emits⟩ := ih opens.of_concat bounded
    have edits := emits_step opens bounded.now
    rcases untaken_step setup moves move with ⟨more, -⟩ | ⟨none, e, first, -⟩
    · rw [more]
      exact ⟨docs, emits.append edits⟩
    · rw [first] at emits
      rw [none] at edits
      obtain ⟨between, rest⟩ := emits.tail
      exact ⟨between, by simpa using rest.append edits⟩

/-! ## A running session -/

theorem ran_append (ran : Scene.RanOn setup (path setup moves) t c kind) (more : List Move) :
    Scene.RanOn setup (path setup (moves ++ more)) t c kind := by
  obtain ⟨rest, same⟩ := path_prefix setup moves more
  rw [← same]
  exact ran.append rest

theorem was_running (ran : Scene.RanOn setup (path setup moves) t c kind)
    (running : ((machine setup).after (moves ++ [move])).scene.session.state = .running) :
    ((machine setup).after moves).scene.session.state = .running := by
  cases named : ((machine setup).after moves).sceneMove? move with
  | none => rwa [after_concat_of_none named] at running
  | some made =>
    rw [scene_after]
    rw [scene_concat named] at running
    exact ran.was_running running

theorem could_write
    (can : (((machine setup).after (moves ++ [move])).scene.session.connection c).canWrite = true) :
    (((machine setup).after moves).scene.session.connection c).canWrite = true := by
  cases named : ((machine setup).after moves).sceneMove? move with
  | none => rwa [after_concat_of_none named] at can
  | some made =>
    rw [scene_after]
    rw [scene_concat named] at can
    exact (Scene.change_after _ _).canWrite c can

/-! ## What is due -/

/-- When the session begins to run, its start has listed nothing so far. -/
theorem awaits_of_ran {before : List Scene.Move} {last : Scene.Move}
    (quiet : ((Scene.machine setup).after before).session.Quiet)
    (step : Session.Ran ((Scene.machine setup).after before).session
      ((Scene.machine setup).after (before ++ [last])).session t c kind) (on : kind ≠ .none) :
    ((Scene.machine setup).after (before ++ [last])).session.Awaits c := by
  constructor
  · exact ⟨t, _, step.here, Or.inl ⟨kind, on, rfl⟩⟩
  · rw [step.sync]
    exact quiet.closed
  · rw [step.told]
    exact quiet.silent c

/-- What is due to be read leads to the documents of the host. -/
def Due (setup : Scene.Setup) (r : Relay) (c : Nat) : Prop :=
  ∃ due, r.scene.session.Follows setup.server.selector c r.untaken due ∧
    ∀ uri, setup.server.selector.readAll uri none due =
      setup.server.selector.editionOf (r.scene.host.document? uri)

/-- The documents that a start lists, and then the events that were not taken by then, lead to the
    documents of the host. -/
theorem readAll_listed (opens : OpensAnew setup moves) (bounded : (machine setup).Always moves Bounded)
    (uri : String) :
    setup.server.selector.readAll uri none
        (((machine setup).after moves).scene.host.documents.map .opened ++
          ((machine setup).after moves).untaken) =
      setup.server.selector.editionOf (((machine setup).after moves).scene.host.document? uri) := by
  obtain ⟨docs, emits⟩ := emits_after opens bounded
  have distinct := @Scene.distinct_after setup (path setup moves)
  rw [← scene_after] at distinct
  rw [DocumentSelector.readAll_append, Host.readAll_opened distinct]
  exact emits.readAll_late uri fun d there => Host.uri_of_document? there

/-- What is due first are the documents that a start lists. -/
theorem due_of_awaits {made : Scene.Move}
    (awaits : ((machine setup).after moves).scene.session.Awaits c)
    (ran : Scene.RanOn setup (path setup moves) t c kind) (on : kind ≠ .none)
    (opens : OpensAnew setup (moves ++ [move])) (bounded : (machine setup).Always moves Bounded)
    (named : ((machine setup).after moves).sceneMove? move = some made)
    (running : ((machine setup).after (moves ++ [move])).scene.session.state = .running)
    (can : (((machine setup).after (moves ++ [move])).scene.session.connection c).canWrite = true) :
    ((machine setup).after (moves ++ [move])).scene.session.Awaits c ∨
      Due setup ((machine setup).after (moves ++ [move])) c := by
  have edits := emits_step opens bounded.now
  have listed := readAll_listed opens.of_concat bounded
  rw [scene_concat named] at running can ⊢
  -- no event is taken while the start still tells of documents
  have untaken : ((machine setup).after (moves ++ [move])).untaken =
      ((machine setup).after moves).untaken ++ ((machine setup).after moves).emitted move := by
    rcases untaken_step setup moves move with ⟨more, -⟩ | ⟨-, e, -, takes⟩
    · exact more
    · rw [scene_after] at awaits
      cases takes with
      | dropped idle =>
        rw [scene_after] at idle
        exact absurd (ran.was_running running) idle
      | read i acts here asks =>
        rw [scene_after] at here
        exact absurd here (awaits.not_looking (Scene.locked_after _))
  rw [scene_after] at awaits
  rcases ran.awaits_step on can awaits ((machine setup).after (moves ++ [move])).untaken with
    awaits | follows
  · exact Or.inl awaits
  · refine Or.inr ⟨_, by rw [scene_concat named]; exact follows, fun uri => ?_⟩
    rw [untaken, ← scene_after, ← List.append_assoc, DocumentSelector.readAll_append, listed]
    exact edits.readAll uri

/-- A session that follows the events goes on to do so. -/
theorem follows_concat {made : Scene.Move}
    (follows : ((machine setup).after moves).scene.session.Follows setup.server.selector c
      ((machine setup).after moves).untaken due)
    (whole : ∀ e ∈ ((machine setup).after moves).untaken, e.Whole)
    (ran : Scene.RanOn setup (path setup moves) t c kind) (on : kind ≠ .none)
    (named : ((machine setup).after moves).sceneMove? move = some made)
    (running : ((machine setup).after (moves ++ [move])).scene.session.state = .running)
    (can : (((machine setup).after (moves ++ [move])).scene.session.connection c).canWrite = true) :
    ((machine setup).after (moves ++ [move])).scene.session.Follows setup.server.selector c
      ((machine setup).after (moves ++ [move])).untaken
      (due ++ ((machine setup).after moves).emitted move) := by
  rw [scene_concat named] at running can ⊢
  rw [scene_after] at follows
  -- the move takes no event, or the next one
  rcases untaken_step setup moves move with ⟨more, apart⟩ | ⟨none, e, first, takes⟩
  · rw [more]
    refine (ran.follows_step on running can follows (Or.inl ⟨rfl, ?_⟩)).more _
    rintro i e rfl here
    rw [← scene_after] at here
    exact apart i e named here
  · rw [none, List.append_nil]
    cases takes with
    | dropped idle =>
      rw [scene_after] at idle
      exact absurd (ran.was_running running) idle
    | read i acts here asks =>
      obtain rfl := Option.some.inj (named.symm.trans acts)
      obtain ⟨op, asks⟩ := Option.isSome_iff_exists.mp asks
      rw [scene_after] at here
      exact ran.follows_step on running can follows
        (Or.inr ⟨i, e, op, rfl, here, asks, whole e (by simp [first]), first⟩)

/-- A session that has read what was due goes on to do so. -/
theorem Due.concat {made : Scene.Move} (due : Due setup ((machine setup).after moves) c)
    (ran : Scene.RanOn setup (path setup moves) t c kind) (on : kind ≠ .none)
    (opens : OpensAnew setup (moves ++ [move]))
    (bounded : (machine setup).Always moves Bounded)
    (named : ((machine setup).after moves).sceneMove? move = some made)
    (running : ((machine setup).after (moves ++ [move])).scene.session.state = .running)
    (can : (((machine setup).after (moves ++ [move])).scene.session.connection c).canWrite = true) :
    Due setup ((machine setup).after (moves ++ [move])) c := by
  obtain ⟨due, follows, agrees⟩ := due
  obtain ⟨docs, emits⟩ := emits_after opens.of_concat bounded
  refine ⟨_, follows_concat follows emits.whole ran on named running can, fun uri => ?_⟩
  rw [DocumentSelector.readAll_append, agrees]
  exact (emits_step opens bounded.now).readAll uri

/-- **Nothing is lost on the way.**  Once a session has begun to run, its start has listed nothing so far,
    or what is due to be read leads to the documents of the host. -/
theorem due_after (opens : OpensAnew setup moves) (bounded : (machine setup).Always moves Bounded)
    (ran : Scene.RanOn setup (path setup moves) t c kind) (on : kind ≠ .none)
    (running : ((machine setup).after moves).scene.session.state = .running)
    (can : (((machine setup).after moves).scene.session.connection c).canWrite = true) :
    ((machine setup).after moves).scene.session.Awaits c ∨
      Due setup ((machine setup).after moves) c := by
  induction moves using List.reverseRecOn with
  | nil =>
    obtain ⟨before, move, later, split, -⟩ := ran
    simp [path] at split
  | append_singleton moves move ih =>
    have earlier := (Machine.always_concat.mp bounded).1
    cases named : ((machine setup).after moves).sceneMove? move with
    | none =>
      rw [path_concat, named, Option.toList_none, List.append_nil] at ran
      rw [after_concat_of_none named] at running can ⊢
      exact ih opens.of_concat earlier ran running can
    | some made =>
      rw [path_concat, named, Option.toList_some] at ran
      rcases ran.of_concat with ran | ⟨quiet, step⟩
      · rcases ih opens.of_concat earlier ran (was_running ran running) (could_write can) with
          awaits | due
        · exact due_of_awaits awaits ran on opens earlier named running can
        · exact Or.inr (due.concat ran on opens earlier named running can)
      · rw [scene_concat named]
        exact Or.inl (awaits_of_ran quiet step on)

/-! ## Agreement -/

/-- The session is done with all events, and has told all that it has to tell of documents. -/
structure Settled (r : Relay) : Prop where
  queue : r.queue = []
  idle : r.isIdle = true
  released : ∀ uri, r.scene.session.sync.staged.get? uri = none
  told : ∀ task ∈ r.scene.session.tasks, ¬ task.HoldsSync

/-- When nobody is left who has something to tell, nothing waits. -/
theorem settled_of_atRest (rests : ((machine setup).after moves).queue = [] ∧
      ((machine setup).after moves).isIdle = true ∧
      ((machine setup).after moves).scene.session.AtRest) :
    ((machine setup).after moves).Settled := by
  obtain ⟨queue, idle, rest⟩ := rests
  have delivered : ((machine setup).after moves).scene.session.Delivered := by
    rw [scene_after]
    exact Scene.delivered_after _
  exact ⟨queue, idle, rest.staged_eq_none delivered, fun task among => (rest task among).1⟩

/-- Where everything is settled, the server has what was due to be read. -/
theorem Settled.reached (settled : ((machine setup).after moves).Settled)
    (follows : ((machine setup).after moves).scene.session.Follows setup.server.selector c
      ((machine setup).after moves).untaken due) (uri : String) :
    Reached ((machine setup).after moves).scene.session.sync
      (((machine setup).after moves).scene.session.told c) uri
      (setup.server.selector.readAll uri none due) := by
  rw [untaken_eq_nil (orderly_after moves) settled.queue settled.idle] at follows
  rw [← Session.conversation_eq_told settled.told]
  exact follows.reached (fun t p here => settled.told _ (List.mem_of_getElem? here)) uri

/-- **The server has what the host has.**  The editor opens what is not open, edits and closes, and
    versions stay below the last one.  However the events, the start and everything else in the session
    take their turns: when everything is settled, and the session runs with a connection that can be
    written on and some synchronisation,

    * the documents that the server has open are those of the host that the selector chooses;
    * the server has the text of each of them;
    * and it was told of each document in the right order, so no document was opened twice without being
      closed in between. -/
theorem host_agreement (opens : OpensAnew setup moves)
    (bounded : (machine setup).Always moves Bounded)
    (settled : ((machine setup).after moves).Settled)
    (running : ((machine setup).after moves).scene.session.state = .running)
    (used : ((machine setup).after moves).scene.session.current = some c)
    (can : (((machine setup).after moves).scene.session.connection c).canWrite = true)
    (on : ((machine setup).after moves).scene.session.sync.kind ≠ .none) :
    let s := ((machine setup).after moves).scene.session
    let h := ((machine setup).after moves).scene.host
    (∀ uri, s.sync.isAnnounced uri = true ↔
      ∃ d, h.document? uri = some d ∧ setup.server.selector.selects d.languageId uri = true) ∧
    (∀ uri d, h.document? uri = some d → setup.server.selector.selects d.languageId uri = true →
      serverState uri (s.told c) = some (.opened (some d.text))) ∧
    ∀ uri, WellFormed (kindsOf uri (s.told c)) := by
  intro s h
  obtain ⟨t, ran⟩ : ∃ t, Scene.RanOn setup (path setup moves) t c s.sync.kind := by
    simp only [s, scene_after] at running used ⊢
    exact Scene.exists_ranOn running used rfl
  have reached : ∀ uri, Reached s.sync (s.told c) uri
      (setup.server.selector.editionOf (h.document? uri)) := by
    intro uri
    -- the start has settled, so the replay is over and every event is told
    rcases due_after opens bounded ran on running can with
      ⟨⟨i, p, here, place⟩, -, -⟩ | ⟨due, follows, agrees⟩
    · refine absurd ?_ (settled.told _ (List.mem_of_getElem? here))
      rcases place with ⟨kind, -, rfl⟩ | rfl <;> trivial
    · rw [← agrees]
      exact settled.reached follows uri
  refine ⟨fun uri => ?_, fun uri d there chosen => ?_, fun uri => ?_⟩
  · rw [(reached uri).isAnnounced]
    cases there : h.document? uri with
    | none => simp
    | some d =>
      obtain rfl := Host.uri_of_document? there
      cases chosen : setup.server.selector.selects d.languageId d.uri <;>
        simp [DocumentSelector.editionOf_some, chosen]
  · have read := reached uri
    obtain rfl := Host.uri_of_document? there
    rw [there, DocumentSelector.editionOf_some, if_pos chosen] at read
    exact read.serverState_eq (settled.released _)
  · simp only [s, scene_after]
    exact (Scene.document_traffic setup _ c).1 uri

/-- A document is open before the start, and it is edited just before the start lists it: both events
    reach the session only after the replay. -/
def listedBeforeEvents : List Move :=
  .opens ⟨"file:///a.rs", "rust", 1, "fn"⟩ :: ((Scene.began.take 14).map .other ++
    .edits "file:///a.rs" "fn main" :: ((Scene.began.drop 14).map .other ++
    .passOn :: ((Scene.steps 2 2).map .other ++
    .passOn :: ((Scene.steps 3 2 ++ .pass 100 :: Scene.steps 4 4).map .other))))

theorem host_agreement_listedBeforeEvents :
    let r := (machine Scene.wholeTexts).after listedBeforeEvents
    r.Settled ∧ r.history.length = 2 ∧
    r.scene.session.sync.isAnnounced "file:///a.rs" = true ∧
    r.scene.host.document? "file:///a.rs" = some ⟨"file:///a.rs", "rust", 2, "fn main"⟩ ∧
    serverState "file:///a.rs" (r.scene.session.told 0) = some (.opened (some "fn main")) := by
  have opens : OpensAnew Scene.wholeTexts listedBeforeEvents := by
    rintro before d later split
    cases before with
    | nil => rfl
    | cons first before =>
      have among : Move.opens d ∈ listedBeforeEvents.tail := by simp [split]
      -- all later openings are none of the first move's
      have other : Move.opens d ∉ Scene.began.map Move.other := by simp
      simp [listedBeforeEvents, Scene.steps, -List.map_take, -List.map_drop] at among
  have bounded : (machine Scene.wholeTexts).Always listedBeforeEvents Bounded :=
    Machine.always_iff.mpr (by decide +kernel)
  have settled : ((machine Scene.wholeTexts).after listedBeforeEvents).Settled :=
    settled_of_atRest (by decide +kernel)
  have agreement := @host_agreement Scene.wholeTexts listedBeforeEvents 0 opens bounded
  generalize same : (machine Scene.wholeTexts).after listedBeforeEvents = r at agreement settled ⊢
  have runs : r.scene.session.state = .running ∧ r.scene.session.current = some 0 ∧
      (r.scene.session.connection 0).canWrite = true ∧ r.scene.session.sync.kind ≠ .none := by
    rw [← same]; decide +kernel
  have there : r.scene.host.document? "file:///a.rs" =
      some ⟨"file:///a.rs", "rust", 2, "fn main"⟩ := by rw [← same]; decide +kernel
  have chosen : Scene.wholeTexts.server.selector.selects "rust" "file:///a.rs" = true := by
    decide +kernel
  obtain ⟨running, used, can, on⟩ := runs
  obtain ⟨announced, has, -⟩ := agreement settled running used can on
  refine ⟨settled, ?_, (announced _).mpr ⟨_, there, chosen⟩, there, has _ _ there chosen⟩
  rw [← same]; decide +kernel

end LanguageClient.Relay
