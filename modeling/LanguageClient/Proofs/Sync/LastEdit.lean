import LanguageClient.Proofs.Sync.Staging
/-!
# The last edit wins

With full synchronisation changes are staged, replaced, released early, released late and dropped,
and a timer of an earlier change may come at any moment.  Whatever the order, the text that the
editor had accepted last for an open document is never lost and never overtaken: it is the text that
waits, when one waits, and otherwise the text the server was told last.
-/

namespace LanguageClient

/-- The whole text of a document in the last notice since it was opened. -/
def lastToldText (uri : String) (h : List SyncEvent) : Option String :=
  (toldSinceOpening uri h).getLast?.bind (·.text?)

theorem lastToldText_concat {uri : String} (h : List SyncEvent) {e : SyncEvent}
    {n : DocumentNotice} (notice : e.notice? = some n) (same : n.uri = uri)
    (kept : e.ends uri = false) : lastToldText uri (h ++ [e]) = n.text? := by
  simp [lastToldText, kept, SyncEvent.noticeOf?_eq_some notice same]

namespace DocumentSync

/-- The text accepted last is the text that waits or, when none waits, the text told last. -/
def HoldsLastEdit (uri : String) (h : List SyncEvent) (s : DocumentSync) : Prop :=
  ∃ text, lastAcceptedText uri h = some text ∧
    match s.staged.get? uri with
    | some change => change.text = text
    | none => lastToldText uri h = some text

/-- An event that does not concern a document, and leaves what is staged for it in place. -/
theorem HoldsLastEdit.concat {uri : String} {h : List SyncEvent} {s s' : DocumentSync}
    {e : SyncEvent} (held : HoldsLastEdit uri h s) (unedited : e.acceptedText? uri = none)
    (untold : e.noticeOf? uri = none) (kept : e.ends uri = false)
    (same : s'.staged.get? uri = s.staged.get? uri) : HoldsLastEdit uri (h ++ [e]) s' := by
  simpa [HoldsLastEdit, lastAcceptedText_concat, lastToldText, unedited, untold, kept, same]
    using held

/-- What holds after every run in which only full synchronisation is agreed on. -/
structure FullSync (h : List SyncEvent) (s : DocumentSync) : Prop where
  kind : s.kind = .full ∨ s.kind = .none ∧ ∀ uri, s.announced.get? uri = none
  lastEdit : ∀ uri lastSent, s.announced.get? uri = some lastSent → HoldsLastEdit uri h s

theorem Transition.fullSync {s s' : DocumentSync} {h : List SyncEvent} {e : SyncEvent}
    (step : Transition s e s') (covered : s.Covered)
    (full : ∀ kind, e.op = .configure kind → kind = .full) (inv : FullSync h s) :
    FullSync (h ++ [e]) s' := by
  cases step with
  | configured kind =>
    obtain rfl := full kind rfl
    exact ⟨Or.inl rfl, fun uri v announced => (inv.lastEdit uri v announced).concat rfl rfl rfl rfl⟩
  | openPassed | refused | saved | releasePassed | closePassed =>
    exact ⟨inv.kind, fun uri v announced => (inv.lastEdit uri v announced).concat rfl rfl rfl rfl⟩
  | opened d on fresh =>
    have kind : s.kind = .full := inv.kind.resolve_right fun off => on off.1
    refine ⟨Or.inl kind, fun uri v announced => ?_⟩
    by_cases same : d.uri = uri
    · -- nothing is staged for a document the server does not have open
      subst same
      refine ⟨d.text, by simp [lastAcceptedText_concat, SyncEvent.acceptedText?], ?_⟩
      have told : lastToldText d.uri (h ++ [⟨.open d, .opened (some ⟨.ofDocument d⟩)⟩])
          = some d.text := lastToldText_concat h (n := .opened ⟨.ofDocument d⟩) rfl rfl rfl
      simpa [covered d.uri fresh] using told
    · simp only [Table.get?_put, if_neg same] at announced
      exact (inv.lastEdit uri v announced).concat (by simp [SyncEvent.acceptedText?, same])
        (SyncEvent.noticeOf?_eq_none rfl same) rfl rfl
  | changePassed c idle =>
    refine ⟨inv.kind, fun uri v announced => ?_⟩
    -- a change is passed over only for a document that is not announced
    have different : c.uri ≠ uri := by
      rintro rfl
      rcases idle with closed | off
      · simp [closed] at announced
      · rcases inv.kind with kind | ⟨-, closed⟩
        · simp [off] at kind
        · simp [closed] at announced
    exact (inv.lastEdit uri v announced).concat (by simp [SyncEvent.acceptedText?, different])
      rfl rfl rfl
  | sent c lastSent incremental =>
    rcases inv.kind with kind | ⟨kind, -⟩ <;> simp [incremental] at kind
  -- the edit waits: it is the last one accepted, and not told
  | staged c lastSent kind announced newer =>
    refine ⟨Or.inl (by simpa using kind), fun uri v announced => ?_⟩
    by_cases same : c.uri = uri
    · subst same
      exact ⟨c.text, by simp [lastAcceptedText_concat, SyncEvent.acceptedText?], by simp⟩
    · exact (inv.lastEdit uri v (by simpa using announced)).concat
        (by simp [SyncEvent.acceptedText?, same]) rfl rfl (by simp [same])
  | released op uri change lastSent asked present announced =>
    refine ⟨by simpa using inv.kind.imp id fun off => absurd announced (by simp [off.2]),
      fun other v opened => ?_⟩
    by_cases same : uri = other
    · -- what waited is now told
      subst same
      obtain ⟨text, accepted, waiting⟩ := inv.lastEdit uri lastSent announced
      rw [present] at waiting
      refine ⟨text, by simpa [lastAcceptedText_concat] using Or.inr ⟨rfl, accepted⟩, ?_⟩
      have told : lastToldText uri
          (h ++ [⟨op, .released (some (didChange uri change.version [.full change.text]))⟩])
          = some change.text :=
        lastToldText_concat h (n := .changed (didChange uri _ [.full change.text])) rfl rfl rfl
      simpa [← waiting] using told
    · simp only [Table.get?_put, if_neg same] at opened
      exact (inv.lastEdit other v opened).concat rfl
        (SyncEvent.noticeOf?_eq_none rfl same) rfl (by simp [same])
  | closed uri lastSent announced =>
    refine ⟨by simpa using inv.kind.imp id fun off => absurd announced (by simp [off.2]),
      fun other v opened => ?_⟩
    -- a document that is gone has nothing more to be told
    by_cases same : uri = other
    · simp [same] at opened
    · simp only [Table.get?_erase, if_neg same] at opened
      exact (inv.lastEdit other v opened).concat rfl rfl (by simp [SyncEvent.ends, same])
        (by simp [same])
  | reset =>
    refine ⟨?_, fun uri v opened => by simp [DocumentSync.reset] at opened⟩
    exact inv.kind.imp id fun off => ⟨off.1, fun _ => rfl⟩

theorem fullSync_run (selector : DocumentSelector) {ops : List SyncOp}
    (full : ∀ kind, .configure kind ∈ ops → kind = .full) :
    FullSync ((new selector).history ops) ((new selector).run ops) := by
  refine run_induction (covered_new selector) ops ⟨Or.inr ⟨rfl, fun _ => rfl⟩, by simp [new]⟩ ?_
  intro before op after answer s' place step inv
  refine step.fullSync (covered_run (covered_new selector) before) (fun kind asked => ?_) inv
  exact full kind (by simp only at asked; simp [place, asked])

/-- The delay of a generation is over: its change is sent exactly when it is the one that waits. -/
theorem takeStaged_eq_some_iff {s : DocumentSync} (covered : s.Covered) {uri : String}
    {generation : Nat} {params : DidChangeParams} :
    (s.takeStaged uri generation).1 = some params ↔
      ∃ change, s.staged.get? uri = some change ∧ change.generation = generation ∧
        params = didChange uri change.version [.full change.text] := by
  rcases release_cases covered uri with ⟨absent, -⟩ | ⟨change, lastSent, present, -, gone⟩
  · simp [takeStaged, absent]
  · by_cases same : change.generation = generation
    · simp [takeStaged, present, same, gone, eq_comm]
    · simp [takeStaged, present, same]

/-- What is taken out at the end of its delay does not wait any more. -/
theorem staged_of_taken {s s' : DocumentSync} (covered : s.Covered) {uri : String}
    {generation : Nat} {params : DidChangeParams}
    (taken : s.step (.takeStaged uri generation) = (.released (some params), s')) :
    s'.staged.get? uri = none := by
  have effect := step_transition covered (.takeStaged uri generation)
  rw [taken] at effect
  generalize same : SyncOp.takeStaged uri generation = op at effect
  cases effect with
  | released _ uri' change' _ asked =>
    rcases asked with rfl | rfl
    · simp at same
    · obtain ⟨rfl, -⟩ := SyncOp.takeStaged.inj same
      simp

/-- **The last edit wins.**  After any operations in any order, with no other kind than full
    synchronisation agreed on:
    * of every open document the text accepted last waits or was told last;
    * only open documents have a staged change;
    * generations grow from each to the next, across closing and resetting, and stay below the number
      of operations;
    * a staged change that was handed out has lapsed exactly if it is no longer the one staged;
    * at the end of a delay the change of each generation is sent at most once, and only while it is
      the one staged for its document. -/
theorem last_edit_wins (selector : DocumentSelector) (ops : List SyncOp)
    (full : ∀ kind, .configure kind ∈ ops → kind = .full) :
    let s := (new selector).run ops
    let h := (new selector).history ops
    (∀ uri, s.isAnnounced uri = true → HoldsLastEdit uri h s) ∧
    (∀ uri, s.staged.has uri = true → s.isAnnounced uri = true) ∧
    ((stagings h).Pairwise fun x y => x.2.generation < y.2.generation) ∧
    (∀ x ∈ stagings h, x.2.generation ≤ ops.length) ∧
    (∀ x ∈ stagings h, x.2.generation ∈ s.lapsed ↔ s.staged.get? x.1 ≠ some x.2) ∧
    (takenGenerations h).Nodup ∧
    ∀ uri generation params, (s.takeStaged uri generation).1 = some params ↔
      ∃ change, s.staged.get? uri = some change ∧ change.generation = generation ∧
        params = didChange uri change.version [.full change.text] := by
  intro s h
  have covered : s.Covered := covered_run (covered_new selector) ops
  have tokens : TokensAfter h s := tokensAfter_run selector ops
  refine ⟨?_, ?_, tokens.increasing, ?_, tokens.lapsed_iff, tokens.taken_nodup,
    fun _ _ _ => takeStaged_eq_some_iff covered⟩
  · intro uri announced
    obtain ⟨lastSent, announced⟩ := isAnnounced_eq_true_iff.mp announced
    exact (fullSync_run selector full).lastEdit uri lastSent announced
  · intro uri waiting
    by_contra closed
    have : s.staged.get? uri = none := covered uri (by simpa [isAnnounced, Table.has] using closed)
    simp [Table.has, this] at waiting
  · exact fun x handed => Nat.le_trans (tokens.handed_le x handed) (lastGeneration_run_le selector ops)

/-- A document is opened and edited twice; the timer of the first edit comes late, then the document
    is edited again, and the third edit waits. -/
def lateTimer : List SyncOp :=
  [.configure .full, .open ⟨"file:///a.ts", "typescript", 1, "let x"⟩,
    .change ⟨"file:///a.ts", 2, [], "let x="⟩, .change ⟨"file:///a.ts", 3, [], "let x=1"⟩,
    .takeStaged "file:///a.ts" 1, .flush "file:///a.ts", .takeStaged "file:///a.ts" 2,
    .change ⟨"file:///a.ts", 4, [], "let x=12"⟩]

theorem last_edit_wins_lateTimer :
    let selector : DocumentSelector := .ofLanguagesAndPatterns ["typescript"] []
    let s := (new selector).run lateTimer
    (∀ kind, .configure kind ∈ lateTimer → kind = .full) ∧
    s.isAnnounced "file:///a.ts" = true ∧
    HoldsLastEdit "file:///a.ts" ((new selector).history lateTimer) s := by
  intro selector s
  have full : ∀ kind, .configure kind ∈ lateTimer → kind = .full := by simp [lateTimer]
  have announced : s.isAnnounced "file:///a.ts" = true := by decide
  exact ⟨full, announced, (last_edit_wins selector lateTimer full).1 _ announced⟩

end DocumentSync

end LanguageClient
