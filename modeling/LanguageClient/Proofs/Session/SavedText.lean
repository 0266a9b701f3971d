import LanguageClient.Proofs.Session.HostAgreement
import LanguageClient.Proofs.Session.Saving
/-!
# The text that goes with a save

A server may want the text of a document with the notice of a save.  When the event of the save does not
bring it along, the session looks it up in the host while it has the lock on the documents
(`saved_after`).

So the text is the one that the host has at that moment.  What the server has by then is the text that is
due when all events that were taken have been read: the two are the same as long as no event about the
document is still on the way (`saved_text`).  An edit that the host has made and the session was not told
of yet makes them differ (`saved_ahead_of_edit`).
-/

namespace LanguageClient

open Session (notice)

def savedNotice (uri : String) (text : Option String) : Notification :=
  notice "textDocument/didSave" (⟨⟨uri⟩, text⟩ : DidSaveParams)

/-- What is read from the notice of a save. -/
theorem text_of_savedNotice (uri : String) (text : Option String) :
    (savedNotice uri text).params.bind (Json.get? "text") = text.map .str := by
  cases text <;> rfl

theorem savedNotice_inj {uri : String} {text text' : Option String}
    (same : savedNotice uri text = savedNotice uri text') : text = text' := by
  have read := text_of_savedNotice uri text
  rw [same, text_of_savedNotice] at read
  exact Option.map_injective (fun _ _ => Json.str.inj) read.symm

/-- The notice of a save without a text of its own is about to be written: it was so before, it has no
    text, or it has the text of the host, which was looked up with the step before. -/
def Session.Noticed (h : Host) (s : Session) (t c : Nat) (uri : String) (n : Notification) : Prop :=
  s.tasks[t]? = some (.event (.saved uri none) (.writing c n)) ∨ n = savedNotice uri none ∨
    s.tasks[t]? = some (.event (.saved uri none) (.naming c)) ∧
      n = savedNotice uri ((h.document? uri).map (·.text))

theorem Session.EventStep.noticed {now : Nat} {h : Host} {s s' : Session} {t c : Nat} {uri : String}
    {n : Notification} {p : EventPhase}
    (step : Session.EventStep now h s t (.saved uri none) p s' (.writing c n))
    (here : s.tasks[t]? = some (.event (.saved uri none) p)) :
    (∀ c, s'.told c = s.told c) ∧ s.Noticed h t c uri n := by
  generalize place : DocumentEvent.saved uri none = e at step
  generalize writes : EventPhase.writing c n = p' at step
  cases step with
  | saved uri' text text' c' _ place' announced content =>
    obtain ⟨rfl, rfl⟩ := DocumentEvent.saved.inj place
    obtain ⟨rfl, rfl⟩ := EventPhase.writing.inj writes
    refine ⟨fun _ => rfl, Or.inr ?_⟩
    rcases content with ⟨-, rfl | rfl⟩ | ⟨rfl, rfl⟩
    · exact Or.inl rfl
    · exact Or.inl rfl
    · exact Or.inr ⟨here, rfl⟩
  | ahead _ c' params _ _ can next =>
    rcases next with ⟨uri', reason, rfl, -⟩ | ⟨uri', text, -, rfl, -⟩ | ⟨rfl, -⟩
    · simp at place
    · simp at writes
    · simp at writes
  | asked _ c' _ _ place' =>
    rcases place' with ⟨-, rfl⟩ | ⟨-, language, rfl⟩ <;> simp at writes
  | opened | sent | closed | warned => simp at place
  | _ => simp at writes

/-- Nothing is told with a move after which the notice of a save is about to be written. -/
theorem Scene.Change.noticed {d d' : Scene} {t c : Nat} {uri : String} {n : Notification}
    (change : Change d d') (locked : d.session.Locked)
    (here' : d'.session.tasks[t]? = some (.event (.saved uri none) (.writing c n))) :
    (∀ c, d'.session.told c = d.session.told c) ∧ d.session.Noticed d.host t c uri n := by
  rcases change.cases with ⟨-, moved⟩ | ⟨aside, -⟩
  · generalize d'.session = s', d'.host = h' at moved here'
    cases moved with
    | served _ _ serves =>
      have told := serves.told
      obtain ⟨c', connection, registry, handlers, passing, diagnostics, -, -, rfl⟩ := serves
      exact ⟨told, Or.inl here'⟩
    | task i task _ s₁ task' there step =>
      rcases step.at there here' with ⟨rfl, rfl⟩ | ⟨other, same | ⟨-, born⟩⟩
      · cases step with
        | event _ p _ _ step => exact step.noticed there
      · -- the event has the lock on the documents, so nobody else tells of them
        have idle : ¬ task.HoldsSync := fun also =>
          other (locked.unique same trivial there also)
        exact ⟨step.told_of_idle idle, Or.inl same⟩
      · cases born
  · refine ⟨fun c => by rw [aside.rest]; rfl, Or.inl ?_⟩
    rcases aside.place t _ here' with same | ⟨-, fresh⟩ | ⟨method, params, cancelled, p, -, other⟩
    · exact same
    · cases fresh
    · simp at other

namespace Relay

variable {setup : Scene.Setup} {moves : List Move} {move : Move} {t c : Nat} {uri : String}
  {text : Option String} {kind : SyncKind}

/-! ## Where the text comes from -/

/-- At a moment since which nothing was told on a connection, a task was about to look a document up in
    the host, and the host had a text for it, or none. -/
def LookedUp (setup : Scene.Setup) (moves : List Move) (t c : Nat) (uri : String)
    (text : Option String) : Prop :=
  ∃ before later, moves = before ++ later ∧
    ((machine setup).after before).scene.session.tasks[t]? =
      some (.event (.saved uri none) (.naming c)) ∧
    text = (((machine setup).after before).scene.host.document? uri).map (·.text) ∧
    ((machine setup).after moves).scene.session.told c =
      ((machine setup).after before).scene.session.told c

theorem LookedUp.concat (lookedUp : LookedUp setup moves t c uri text)
    (told : ((machine setup).after (moves ++ [move])).scene.session.told c =
      ((machine setup).after moves).scene.session.told c) :
    LookedUp setup (moves ++ [move]) t c uri text := by
  obtain ⟨before, later, rfl, here, found, same⟩ := lookedUp
  exact ⟨before, later ++ [move], by simp, here, found, told.trans same⟩

/-- The notice of a save without a text of its own has none, or the one that the session has looked up in
    the host. -/
theorem saved_after (moves : List Move) : ∀ (t : Nat) (uri : String) (c : Nat) (n : Notification),
    ((machine setup).after moves).scene.session.tasks[t]? =
      some (.event (.saved uri none) (.writing c n)) →
    n = savedNotice uri none ∨ ∃ text, n = savedNotice uri text ∧ LookedUp setup moves t c uri text := by
  refine (machine setup).run_induction (fun moves r => ∀ (t : Nat) (uri : String) (c : Nat)
    (n : Notification), r.scene.session.tasks[t]? = some (.event (.saved uri none) (.writing c n)) →
    n = savedNotice uri none ∨ ∃ text, n = savedNotice uri text ∧ LookedUp setup moves t c uri text)
    ?_ ?_ moves
  · simp [machine, Scene.machine, Session.ofConfig]
  · intro moves move saved t uri c n here'
    cases named : ((machine setup).after moves).sceneMove? move with
    | none =>
      have same := after_concat_of_none named
      rw [same] at here'
      refine (saved t uri c n here').imp_right ?_
      rintro ⟨text, rfl, lookedUp⟩
      exact ⟨text, rfl, lookedUp.concat (by rw [same])⟩
    | some made =>
      -- the session makes a move
      have change : Scene.Change ((machine setup).after moves).scene
          ((machine setup).after (moves ++ [move])).scene := by
        rw [scene_after moves, scene_concat named]
        exact Scene.change_after _ made
      obtain ⟨told, noticed⟩ := change.noticed (by rw [scene_after]; exact Scene.locked_after _) here'
      -- the notice was ready before, or the task has just looked the text up
      rcases noticed with here | rfl | ⟨here, rfl⟩
      · refine (saved t uri c n here).imp_right ?_
        rintro ⟨text, rfl, lookedUp⟩
        exact ⟨text, rfl, lookedUp.concat (told c)⟩
      · exact Or.inl rfl
      · exact Or.inr ⟨_, rfl, moves, [move], rfl, here, rfl, told c⟩

/-! ## The text that the server has -/

theorem was_running_of_append (ran : Scene.RanOn setup (path setup moves) t c kind) (more : List Move)
    (running : ((machine setup).after (moves ++ more)).scene.session.state = .running) :
    ((machine setup).after moves).scene.session.state = .running := by
  induction more using List.reverseRecOn with
  | nil => simpa using running
  | append_singleton more move ih =>
    rw [← List.append_assoc] at running
    exact ih (was_running (ran_append ran more) running)

theorem could_write_of_append (more : List Move)
    (can : (((machine setup).after (moves ++ more)).scene.session.connection c).canWrite = true) :
    (((machine setup).after moves).scene.session.connection c).canWrite = true := by
  induction more using List.reverseRecOn with
  | nil => simpa using can
  | append_singleton more move ih =>
    rw [← List.append_assoc] at can
    exact ih (could_write can)

/-- When a task is about to look a document up for the notice of its save, and no event about the document
    is on the way, the server has the text of the host. -/
theorem serverState_of_naming (opens : OpensAnew setup moves)
    (bounded : (machine setup).Always moves Bounded)
    (running : ((machine setup).after moves).scene.session.state = .running)
    (can : (((machine setup).after moves).scene.session.connection c).canWrite = true)
    (here : ((machine setup).after moves).scene.session.tasks[t]? =
      some (.event (.saved uri text) (.naming c)))
    (others : ∀ e ∈ ((machine setup).after moves).untaken, e.uri ≠ uri) :
    ∃ d, ((machine setup).after moves).scene.host.document? uri = some d ∧
      serverState uri (((machine setup).after moves).scene.session.told c) =
        some (.opened (some d.text)) := by
  have place := here
  rw [scene_after] at place
  have holds : (Task.event (.saved uri text) (.naming c)).HoldsSync := trivial
  obtain ⟨t', c', kind, ran⟩ := Scene.exists_ranOn_of_holds place holds
  obtain rfl : c = c' := ran.on.held t _ c place holds rfl
  -- the task that looks the text up has the lock, so nobody else tells anything
  have locked := @Scene.locked_after setup (path setup moves)
  have announced : ((Scene.machine setup).after (path setup moves)).session.sync.isAnnounced uri =
      true := ran.on.regards t _ _ place trivial
  have nothing := Scene.cleared_after (path setup moves) t _ uri place ⟨text, rfl⟩
  have owed := locked.owed place (Or.inr (locked.holder t _ place holds))
  rw [← scene_after] at locked announced nothing owed
  -- with no synchronisation nothing would be announced
  have on : kind ≠ .none := by
    rintro rfl
    have closed := ran.silent.closed uri
    rw [← scene_after] at closed
    exact absurd (announced.symm.trans closed) (by simp)
  have idle : ∀ (i : Nat) (p : StartPhase),
      ((machine setup).after moves).scene.session.tasks[i]? = some (.start p) →
      ¬ (Task.start p).HoldsSync := by
    intro i p there also
    obtain rfl := locked.unique there also here holds
    exact absurd (there.symm.trans here) (by simp)
  -- no start replays documents now, so every event that was taken has been told
  rcases due_after opens bounded ran on running can with
    ⟨⟨i, p, there, place⟩, -, -⟩ | ⟨due, ⟨taken, left, rfl, left_eq, reached⟩, agrees⟩
  · exact absurd (by rcases place with ⟨kind, -, rfl⟩ | rfl <;> trivial) (idle i p there)
  · obtain rfl := left_eq.eq_nil idle
    have read := reached uri
    have same := agrees uri
    rw [List.map_nil, List.nil_append, DocumentSelector.readAll_append,
      DocumentSelector.readAll_others _ _ others] at same
    rw [same, Session.conversation, owed] at read
    cases there : ((machine setup).after moves).scene.host.document? uri with
    | none =>
      rw [there] at read
      exact absurd (announced.symm.trans read.isAnnounced) (by simp)
    | some d =>
      obtain rfl := Host.uri_of_document? there
      rw [there, DocumentSelector.editionOf_some] at read
      split at read
      · have told := read.serverState_eq nothing
        exact ⟨d, rfl, by simpa [Task.owed, Document.edition] using told⟩
      · exact absurd (announced.symm.trans read.isAnnounced) (by simp)

/-- **The text that goes with a save.**  The editor opens what is not open, edits and closes, and versions
    stay below the last one.  When a running session is about to write the notice of a save whose event
    had no text, and its connection can be written on:

    * the notice has no text, or it has the one that the host had for the document when the session looked
      it up, and nothing was told on the connection since;
    * if no event about the document was on the way to the session at that moment, the notice has a text,
      and it is the one that the server has. -/
theorem saved_text (opens : OpensAnew setup moves) (bounded : (machine setup).Always moves Bounded)
    (running : ((machine setup).after moves).scene.session.state = .running)
    (can : (((machine setup).after moves).scene.session.connection c).canWrite = true)
    {n : Notification} (here : ((machine setup).after moves).scene.session.tasks[t]? =
      some (.event (.saved uri none) (.writing c n))) :
    n = savedNotice uri none ∨
    ∃ before later text, moves = before ++ later ∧ n = savedNotice uri text ∧
      text = (((machine setup).after before).scene.host.document? uri).map (·.text) ∧
      ((machine setup).after moves).scene.session.told c =
        ((machine setup).after before).scene.session.told c ∧
      ((∀ e ∈ ((machine setup).after before).untaken, e.uri ≠ uri) →
        text.isSome = true ∧
        serverState uri (((machine setup).after moves).scene.session.told c) =
          some (.opened text)) := by
  refine (saved_after moves t uri c n here).imp_right ?_
  rintro ⟨text, rfl, before, later, rfl, named, found, told⟩
  refine ⟨before, later, text, rfl, rfl, found, told, fun others => ?_⟩
  -- the text was looked up under the lock
  have holds : (Task.event (.saved uri none) (.naming c)).HoldsSync := trivial
  have place := named
  rw [scene_after] at place
  obtain ⟨t', c', kind, ran⟩ := Scene.exists_ranOn_of_holds place holds
  have earlier : OpensAnew setup before := fun first d rest split =>
    opens first d (rest ++ later) (by simp [split])
  have below : (machine setup).Always before Bounded := fun first rest split =>
    bounded first (rest ++ later) (by simp [split])
  obtain ⟨d, there, read⟩ := serverState_of_naming earlier below
    (was_running_of_append ran later running) (could_write_of_append later can) named others
  rw [found, there, told, read]
  exact ⟨rfl, rfl⟩

/-- The session begins to run; the server wants the text with the notice of a save. -/
def beganWithText : List Move :=
  let sync : Json := .obj [("openClose", .bool true), ("change", .int 1),
    ("save", .obj [("includeText", .bool true)])]
  let result : Json := .obj [("capabilities", .obj [("textDocumentSync", sync)])]
  let started : List Scene.Move := [.start] ++ Scene.steps 0 6 ++
    [.feed 0 (Utf8.encodeString (Message.response (.success (.number 1) result)).frame),
      .act (.reader 0), .act (.reader 0)] ++ Scene.steps 0 6
  started.map .other

/-- A document is open before the session begins to run, and then it is edited; the session is told of
    both. -/
def editedOnce : List Move :=
  .opens ⟨"file:///a.rs", "rust", 1, "fn"⟩ :: (beganWithText ++
    .passOn :: (Scene.steps 2 2).map .other ++
    .edits "file:///a.rs" "fn m" :: .passOn :: (Scene.steps 3 2).map .other)

/-- The document is saved, and the notice of the save is about to be written. -/
def savedNow : List Move :=
  editedOnce ++ (.event (.saved "file:///a.rs" none) :: Scene.steps 5 5).map .other

/-- The notice of the save has the text that the host had, and that the server has. -/
theorem saved_text_savedNow :
    let r := (machine Scene.wholeTexts).after savedNow
    r.scene.session.tasks[5]? = some (.event (.saved "file:///a.rs" none)
      (.writing 0 (savedNotice "file:///a.rs" (some "fn m")))) ∧
    serverState "file:///a.rs" (r.scene.session.told 0) = some (.opened (some "fn m")) ∧
    ∃ before later, savedNow = before ++ later ∧
      (((machine Scene.wholeTexts).after before).scene.host.document? "file:///a.rs").map (·.text) =
        some "fn m" := by
  have opens : OpensAnew Scene.wholeTexts savedNow := by
    rintro before d later split
    cases before with
    | nil => rfl
    | cons first before =>
      have among : Move.opens d ∈ savedNow.tail := by simp [split]
      simp [savedNow, editedOnce, beganWithText, Scene.steps] at among
  have bounded : (machine Scene.wholeTexts).Always savedNow Bounded :=
    Machine.always_iff.mpr (by decide +kernel)
  have running : ((machine Scene.wholeTexts).after savedNow).scene.session.state = .running := by
    decide +kernel
  have can : (((machine Scene.wholeTexts).after savedNow).scene.session.connection 0).canWrite =
      true := by decide +kernel
  have writing : ((machine Scene.wholeTexts).after savedNow).scene.session.tasks[5]?.bind
      Task.notice? = some (.saved "file:///a.rs" none, 0,
        savedNotice "file:///a.rs" (some "fn m")) := by decide +kernel
  have here := Task.eq_of_notice? writing
  refine ⟨here, by decide +kernel, ?_⟩
  rcases saved_text opens bounded running can here with none | ⟨before, later, text, split, same, found, -⟩
  · exact absurd (savedNotice_inj none) (by simp)
  · obtain rfl := savedNotice_inj same
    exact ⟨before, later, split, found.symm⟩

/-- Before the document is saved it is edited once more, and the session was not told of the edit yet. -/
def savedAhead : List Move :=
  editedOnce ++ .edits "file:///a.rs" "fn main" ::
    (.event (.saved "file:///a.rs" none) :: Scene.steps 5 5).map .other

/-- The notice of the save has a text that is ahead of the edits that the server was told of. -/
theorem saved_ahead_of_edit :
    let r := (machine Scene.wholeTexts).after savedAhead
    r.scene.session.tasks[5]? = some (.event (.saved "file:///a.rs" none)
      (.writing 0 (savedNotice "file:///a.rs" (some "fn main")))) ∧
    (r.scene.session.connection 0).canWrite = true ∧
    serverState "file:///a.rs" (r.scene.session.told 0) = some (.opened (some "fn m")) := by
  intro r
  have writing : r.scene.session.tasks[5]?.bind Task.notice? = some (.saved "file:///a.rs" none, 0,
      savedNotice "file:///a.rs" (some "fn main")) := by decide +kernel
  exact ⟨Task.eq_of_notice? writing, by decide +kernel, by decide +kernel⟩

end Relay

end LanguageClient
