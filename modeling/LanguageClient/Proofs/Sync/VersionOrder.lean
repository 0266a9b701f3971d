import LanguageClient.Proofs.Sync.History
import Mathlib.Tactic.IntervalCases
/-!
# Versions only grow

The version of a document lies in two places, with what was sent last and with what waits, and the
two are written at different times.  `InOrder` ties both to the notices in the history: whatever is
sent, staged, released or refused in between, from the opening of a document to its closing its
versions never fall.

The kind of synchronisation may change any number of times, as long as no document is open at the
server when it does.  Without that a change could wait while a newer one is sent at once.
-/

namespace LanguageClient.DocumentSync

/-- The version of an open document last sent, as its history tells it, or a later one that waits. -/
def newestKnown (uri : String) (h : List SyncEvent) (s : DocumentSync) : Option Int32 :=
  (toldSinceOpening uri h).getLast?.map fun n =>
    match s.staged.get? uri with
    | some change => max n.version change.version
    | none => n.version

/-- The notices of a document agree with the bookkeeping and are in the order of their versions. -/
structure InOrder (uri : String) (h : List SyncEvent) (s : DocumentSync) : Prop where
  untold : s.announced.get? uri = none → toldSinceOpening uri h = []
  last : ∀ v, s.announced.get? uri = some v →
    (toldSinceOpening uri h).getLast?.map (·.version) = some v
  sorted : (toldSinceOpening uri h).Pairwise fun m n => m.version ≤ n.version
  bounded : ∀ v, s.announced.get? uri = some v → ∀ n ∈ toldSinceOpening uri h, n.version ≤ v
  staged : ∀ v change, s.announced.get? uri = some v → s.staged.get? uri = some change →
    v ≤ change.version

namespace InOrder

variable {uri : String} {h : List SyncEvent} {s s' : DocumentSync} {e : SyncEvent}

/-- An event that tells nothing of a document. -/
theorem concat_untold (inv : InOrder uri h s) (untold : e.noticeOf? uri = none)
    (kept : e.ends uri = false) (announced : s'.announced.get? uri = s.announced.get? uri)
    (staged : ∀ v change, s.announced.get? uri = some v → s'.staged.get? uri = some change →
      v ≤ change.version) : InOrder uri (h ++ [e]) s' := by
  have same : toldSinceOpening uri (h ++ [e]) = toldSinceOpening uri h := by simp [untold, kept]
  constructor
  · simpa [same, announced] using inv.untold
  · simpa [same, announced] using inv.last
  · simpa [same] using inv.sorted
  · simpa [same, announced] using inv.bounded
  · simpa [announced] using staged

/-- An event that tells nothing of a document, and leaves what is staged for it in place. -/
theorem concat_of_eq (inv : InOrder uri h s) (untold : e.noticeOf? uri = none)
    (kept : e.ends uri = false) (announced : s'.announced.get? uri = s.announced.get? uri)
    (staged : s'.staged.get? uri = s.staged.get? uri) : InOrder uri (h ++ [e]) s' :=
  inv.concat_untold untold kept announced fun v change told waiting =>
    inv.staged v change told (staged ▸ waiting)

/-- A notice that is not older than what the server has, after which nothing waits. -/
theorem concat_told (inv : InOrder uri h s) {n : DocumentNotice} (notice : e.notice? = some n)
    (same : n.uri = uri) (kept : e.ends uri = false)
    (newer : ∀ v, s.announced.get? uri = some v → v ≤ n.version)
    (announced : s'.announced.get? uri = some n.version) (staged : s'.staged.get? uri = none) :
    InOrder uri (h ++ [e]) s' := by
  have told : toldSinceOpening uri (h ++ [e]) = toldSinceOpening uri h ++ [n] := by
    simp [kept, SyncEvent.noticeOf?_eq_some notice same]
  have older : ∀ m ∈ toldSinceOpening uri h, m.version ≤ n.version := by
    intro m hm
    cases before : s.announced.get? uri with
    | none => simp [inv.untold before] at hm
    | some v => exact Int32.le_trans (inv.bounded v before m hm) (newer v before)
  constructor
  · simp [announced]
  · simp [told, announced]
  · rw [told, List.pairwise_append]
    refine ⟨inv.sorted, List.pairwise_singleton _ _, fun m hm n' hn' => ?_⟩
    rw [List.mem_singleton.mp hn']
    exact older m hm
  · intro v now m hm
    obtain rfl : n.version = v := by simpa [announced] using now
    rw [told, List.mem_append] at hm
    rcases hm with hm | hm
    · exact older m hm
    · rw [List.mem_singleton.mp hm]
      exact Int32.le_refl _
  · simp [staged]

/-- A document that the server has forgotten. -/
theorem concat_forgotten (gone : e.ends uri = true) (closed : s'.announced.get? uri = none) :
    InOrder uri (h ++ [e]) s' := by
  constructor <;> simp [gone, closed]

end InOrder

/-- A change that is not refused is not older than the version last sent, nor than one that waits. -/
theorem le_of_not_lt_newestVersion {s : DocumentSync} {uri : String} {version lastSent : Int32}
    (newer : ¬ version < s.newestVersion uri lastSent) : lastSent ≤ version := by
  unfold newestVersion at newer
  cases waiting : s.staged.get? uri with
  | none => simpa [waiting] using newer
  | some change =>
    simp only [waiting, Int32.not_lt] at newer
    split at newer
    · exact newer
    · rename_i above
      exact Int32.le_trans (Int32.not_lt.mp above) newer

/-- What holds after every run in which the kind changes only while no document is open. -/
structure VersionsKept (h : List SyncEvent) (s : DocumentSync) : Prop where
  full : s.kind ≠ .full → ∀ uri, s.staged.get? uri = none
  inOrder : ∀ uri, InOrder uri h s

theorem Transition.versionsKept {s s' : DocumentSync} {h : List SyncEvent} {e : SyncEvent}
    (step : Transition s e s') (covered : s.Covered)
    (idle : ∀ kind, e.op = .configure kind → ∀ uri, s.announced.get? uri = none)
    (inv : VersionsKept h s) : VersionsKept (h ++ [e]) s' := by
  cases step with
  | configured kind =>
    exact ⟨fun _ uri => covered uri (idle kind rfl uri),
      fun uri => (inv.inOrder uri).concat_of_eq rfl rfl rfl rfl⟩
  | openPassed | changePassed | refused | saved | releasePassed | closePassed =>
    exact ⟨inv.full, fun uri => (inv.inOrder uri).concat_of_eq rfl rfl rfl rfl⟩
  | opened d on fresh =>
    refine ⟨inv.full, fun uri => ?_⟩
    by_cases same : d.uri = uri
    · subst same
      exact (inv.inOrder d.uri).concat_told (n := .opened ⟨.ofDocument d⟩) rfl rfl rfl
        (by simp [fresh]) (by simp [DocumentNotice.version, TextDocumentItem.ofDocument,
          DocumentVersion.toInt32]) (covered d.uri fresh)
    -- a notice of another document does not touch the order of this one
    · exact (inv.inOrder uri).concat_of_eq (SyncEvent.noticeOf?_eq_none rfl same) rfl
        (by simp [same]) rfl
  | sent c lastSent incremental announced newer =>
    have unstaged := inv.full (by simp [incremental])
    refine ⟨fun _ => unstaged, fun uri => ?_⟩
    by_cases same : c.uri = uri
    · subst same
      exact (inv.inOrder c.uri).concat_told (n := .changed (didChange c.uri c.version c.changes))
        rfl rfl rfl (by simpa [announced, DocumentNotice.version, didChange] using
          le_of_not_lt_newestVersion newer) (by simp [DocumentNotice.version, didChange])
        (unstaged c.uri)
    · exact (inv.inOrder uri).concat_of_eq (SyncEvent.noticeOf?_eq_none rfl same) rfl
        (by simp [same]) rfl
  | staged c lastSent full announced newer =>
    refine ⟨fun other => absurd (by simpa using full) other, fun uri => ?_⟩
    refine (inv.inOrder uri).concat_untold rfl rfl (by simp) fun v change told waiting => ?_
    -- a staged change is newer than what was told, so that it may be told later
    by_cases same : c.uri = uri
    · subst same
      obtain rfl : lastSent = v := by simpa [announced] using told
      obtain rfl : _ = change := by simpa using waiting
      exact le_of_not_lt_newestVersion newer
    · exact (inv.inOrder uri).staged v change told (by simpa [same] using waiting)
  | released op uri change lastSent asked present announced =>
    refine ⟨fun other => absurd (inv.full (by simpa using other) uri) (by simp [present]),
      fun other => ?_⟩
    by_cases same : uri = other
    · subst same
      refine (inv.inOrder uri).concat_told
        (n := .changed (didChange uri change.version [.full change.text])) rfl rfl rfl ?_
        (by simp [DocumentNotice.version, didChange]) (by simp)
      intro v told
      exact (inv.inOrder uri).staged v change told present
    · exact (inv.inOrder other).concat_of_eq (SyncEvent.noticeOf?_eq_none rfl same) rfl
        (by simp [same]) (by simp [same])
  | closed uri lastSent announced =>
    refine ⟨fun off other => ?_, fun other => ?_⟩
    -- without full synchronisation nothing is staged
    · have unstaged := inv.full (by simpa using off) other
      simp [unstaged]
    · by_cases same : uri = other
      · exact InOrder.concat_forgotten (by simp [SyncEvent.ends, same]) (by simp [same])
      · exact (inv.inOrder other).concat_of_eq rfl (by simp [SyncEvent.ends, same])
          (by simp [same]) (by simp [same])
  | reset => exact ⟨fun _ _ => rfl, fun uri => InOrder.concat_forgotten rfl rfl⟩

/-- The kind of synchronisation changes only while no document is open at the server. -/
def ConfiguredIdle (selector : DocumentSelector) (ops : List SyncOp) : Prop :=
  ∀ (i : Nat) (kind : SyncKind), ops[i]? = some (.configure kind) →
    ((new selector).run (ops.take i)).announced = []

theorem ConfiguredIdle.of_append {selector : DocumentSelector} {ops more : List SyncOp}
    (idle : ConfiguredIdle selector (ops ++ more)) : ConfiguredIdle selector ops := by
  intro i kind here
  have inside : i < ops.length := (List.getElem?_eq_some_iff.mp here).1
  have closed := idle i kind (by rwa [List.getElem?_append_left inside])
  rwa [List.take_append_of_le_length inside.le] at closed

theorem versionsKept_run {selector : DocumentSelector} {ops : List SyncOp}
    (idle : ConfiguredIdle selector ops) :
    VersionsKept ((new selector).history ops) ((new selector).run ops) := by
  have start : VersionsKept [] (new selector) := by
    refine ⟨fun _ _ => rfl, fun uri => ?_⟩
    constructor <;> simp [new]
  refine run_induction (covered_new selector) ops start ?_
  intro before op after answer s' place step inv
  refine step.versionsKept (covered_run (covered_new selector) before) (fun kind asked uri => ?_) inv
  simp only at asked
  have closed := idle before.length kind (by simp [place, asked])
  rw [place, List.take_left] at closed
  simp [closed]

/-- The newest version the bookkeeping compares with is the newest one the history knows. -/
theorem newestKnown_eq {uri : String} {h : List SyncEvent} {s : DocumentSync} {lastSent : Int32}
    (inv : InOrder uri h s) (announced : s.announced.get? uri = some lastSent) :
    newestKnown uri h s = some (s.newestVersion uri lastSent) := by
  obtain ⟨n, last, rfl⟩ := Option.map_eq_some_iff.mp (inv.last lastSent announced)
  cases waiting : s.staged.get? uri with
  | none => simp [newestKnown, newestVersion, last, waiting]
  | some change =>
    have newer := inv.staged n.version change announced waiting
    simp [newestKnown, newestVersion, last, waiting, Max.max, newer, Int32.not_lt.mpr newer]

/-- A change is refused exactly when its document is open and it is older than the newest version. -/
theorem step_change_refused_iff {h : List SyncEvent} {s : DocumentSync} (c : DocumentChange)
    (inv : InOrder c.uri h s) (e : ClientError) :
    (s.step (.change c)).1 = .refused e ↔
      s.isAnnounced c.uri = true ∧ ∃ newest, newestKnown c.uri h s = some newest ∧
        c.version < newest ∧ e = .staleVersion c.uri c.version newest := by
  cases announced : s.announced.get? c.uri with
  | none => simp [step, change, announced, isAnnounced, Table.has]
  | some lastSent =>
    have known := newestKnown_eq inv announced
    have told : s.isAnnounced c.uri = true := isAnnounced_eq_true_iff.mpr ⟨lastSent, announced⟩
    by_cases older : c.version < s.newestVersion c.uri lastSent
    · simp [step, change, announced, known, told, older, eq_comm]
    · cases kind : s.kind <;> simp [step, change, announced, known, told, older, kind]

/-- **Versions only grow.**  After any operations in any order, the kind changing only while no
    document is open:
    * the notices of a document carry versions that never fall, over every stretch of the history in
      which the server does not forget the document;
    * a staged version is not below the version last sent;
    * a change is refused, as too old, exactly when its document is open and its version is below
      the larger of the one last sent and the one staged;
    * a refused change leaves all of the bookkeeping as it was. -/
theorem versions_never_fall (selector : DocumentSelector) (ops : List SyncOp)
    (idle : ConfiguredIdle selector ops) :
    let s := (new selector).run ops
    let h := (new selector).history ops
    (∀ uri before mid after, h = before ++ mid ++ after → (∀ e ∈ mid, e.ends uri = false) →
      (mid.filterMap (·.noticeOf? uri)).Pairwise fun m n => m.version ≤ n.version) ∧
    (∀ uri change, s.staged.get? uri = some change →
      ∃ n, (toldSinceOpening uri h).getLast? = some n ∧ n.version ≤ change.version) ∧
    (∀ c e, (s.step (.change c)).1 = .refused e ↔
      s.isAnnounced c.uri = true ∧ ∃ newest, newestKnown c.uri h s = some newest ∧
        c.version < newest ∧ e = .staleVersion c.uri c.version newest) ∧
    ∀ c e, (s.step (.change c)).1 = .refused e → (s.step (.change c)).2 = s := by
  intro s h
  have inv : VersionsKept h s := versionsKept_run idle
  refine ⟨?_, ?_, fun c e => step_change_refused_iff c (inv.inOrder c.uri) e, ?_⟩
  -- a stretch of the history is the history of a run of its own, and versions are kept in it
  · intro uri before mid after place kept
    obtain ⟨ops₁, ops₂, split, reached⟩ := exists_history_of_append place
    have earlier := ((versionsKept_run (split ▸ idle).of_append).inOrder uri).sorted
    rw [reached, toldSinceOpening_append before kept, List.pairwise_append] at earlier
    exact earlier.2.1
  · intro uri change waiting
    cases announced : s.announced.get? uri with
    | none =>
      simp [covered_run (covered_new selector) ops uri announced, s] at waiting
    | some lastSent =>
      obtain ⟨n, last, rfl⟩ := Option.map_eq_some_iff.mp ((inv.inOrder uri).last _ announced)
      exact ⟨n, last, (inv.inOrder uri).staged _ change announced waiting⟩
  · intro c e refused
    have effect := step_change_transition s c
    rw [refused] at effect
    generalize (s.step (.change c)).2 = s' at effect ⊢
    cases effect with
    | refused => rfl

/-- A document is edited under both kinds: in parts, then closed, and after the kind has changed as a
    whole.  The edit to version 8 comes too late, first to what was sent and then to what waits. -/
def twoKinds : List SyncOp :=
  [.configure .incremental, .open ⟨"file:///a.ts", "typescript", 5, "let x"⟩,
    .change ⟨"file:///a.ts", 9, [], "let x="⟩, .change ⟨"file:///a.ts", 8, [], "let y"⟩,
    .close "file:///a.ts", .configure .full, .open ⟨"file:///a.ts", "typescript", -3, "let x="⟩,
    .change ⟨"file:///a.ts", 9, [], "let x=1"⟩]

theorem versions_never_fall_twoKinds :
    let selector : DocumentSelector := .ofLanguagesAndPatterns ["typescript"] []
    let s := (new selector).run twoKinds
    let late : DocumentChange := ⟨"file:///a.ts", 8, [], "let y"⟩
    ConfiguredIdle selector twoKinds ∧
    (s.step (.change late)).1 = .refused (.staleVersion "file:///a.ts" 8 9) ∧
    (s.step (.change late)).2 = s := by
  intro selector s late
  have idle : ConfiguredIdle selector twoKinds := by
    intro i kind here
    have short : i < 8 := (List.getElem?_eq_some_iff.mp here).1
    interval_cases i <;> first | decide | simp [twoKinds] at here
  have main := versions_never_fall selector twoKinds idle
  have refused : (s.step (.change late)).1 = .refused (.staleVersion "file:///a.ts" 8 9) := by
    decide
  exact ⟨idle, refused, main.2.2.2 late _ refused⟩

end LanguageClient.DocumentSync
