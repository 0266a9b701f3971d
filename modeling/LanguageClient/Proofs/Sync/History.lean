import LanguageClient.Document.Sync
import Mathlib.Data.List.Induction
/-!
# Histories of the bookkeeping

Editor events, timers and the life of the session use `DocumentSync` in any order.  A *history* is
the list of operations that were made, each with the answer it got.  What a server knows of a
document, which text the editor last had accepted, and which staged changes were handed out are all
read off a history alone, without a look at the bookkeeping; the theorems about histories say that
the bookkeeping agrees with it.

`Transition` lists once what a single operation can do, and `step_transition` is the only proof that
looks into the operations.  `run_induction` carries a property through every run.
-/

namespace LanguageClient

/-! ## Operations and answers -/

inductive SyncOp where
  | configure (kind : SyncKind)
  | open (d : Document)
  | change (c : DocumentChange)
  | takeStaged (uri : String) (generation : Nat)
  | flush (uri : String)
  | save (uri : String) (text : Option String)
  | close (uri : String)
  | reset
  deriving DecidableEq, Repr

inductive SyncAnswer where
  | done
  | opened (params : Option DidOpenParams)
  | changed (action : ChangeAction)
  | refused (e : ClientError)
  | released (params : Option DidChangeParams)
  | saved (params : Option DidSaveParams)
  | closed (params : Option DidCloseParams)
  | dropped
  deriving DecidableEq

structure SyncEvent where
  op : SyncOp
  answer : SyncAnswer
  deriving DecidableEq

namespace DocumentSync

/-- Makes one operation.  A refused change hands no new bookkeeping back, so the old one stays. -/
def step (s : DocumentSync) : SyncOp → SyncAnswer × DocumentSync
  | .configure kind => (.done, s.configure kind)
  | .open d => let (params, s) := s.open d; (.opened params, s)
  | .change c =>
    match s.change c with
    | .error e => (.refused e, s)
    | .ok (action, s) => (.changed action, s)
  | .takeStaged uri generation =>
    let (params, s) := s.takeStaged uri generation; (.released params, s)
  | .flush uri => let (params, s) := s.flush uri; (.released params, s)
  | .save uri text => (.saved (s.save uri text), s)
  | .close uri => let (params, s) := s.close uri; (.closed params, s)
  | .reset => (.dropped, s.reset)

def run (s : DocumentSync) : List SyncOp → DocumentSync
  | [] => s
  | op :: ops => (s.step op).2.run ops

/-- Some operations with the answers they get. -/
def history (s : DocumentSync) : List SyncOp → List SyncEvent
  | [] => []
  | op :: ops => ⟨op, (s.step op).1⟩ :: (s.step op).2.history ops

theorem run_append (s : DocumentSync) (ops more : List SyncOp) :
    s.run (ops ++ more) = (s.run ops).run more := by
  induction ops generalizing s with
  | nil => rfl
  | cons op ops ih => exact ih (s.step op).2

theorem history_append (s : DocumentSync) (ops more : List SyncOp) :
    s.history (ops ++ more) = s.history ops ++ (s.run ops).history more := by
  induction ops generalizing s with
  | nil => rfl
  | cons op ops ih => exact congrArg (⟨op, (s.step op).1⟩ :: ·) (ih (s.step op).2)

@[simp] theorem length_history (s : DocumentSync) (ops : List SyncOp) :
    (s.history ops).length = ops.length := by
  induction ops generalizing s with
  | nil => rfl
  | cons op ops ih => simp [history, ih]

/-- The beginning of a history is the history of the beginning of the operations. -/
theorem exists_history_of_append {s : DocumentSync} {ops : List SyncOp}
    {before after : List SyncEvent} (h : s.history ops = before ++ after) :
    ∃ ops₁ ops₂, ops = ops₁ ++ ops₂ ∧ s.history ops₁ = before := by
  refine ⟨ops.take before.length, ops.drop before.length,
    (List.take_append_drop _ _).symm, ?_⟩
  have split := s.history_append (ops.take before.length) (ops.drop before.length)
  rw [List.take_append_drop, h] at split
  have short : before.length ≤ ops.length := by
    have := congrArg List.length h
    simp at this
    omega
  exact (List.append_inj_left split (by simp [short])).symm

end DocumentSync

/-! ## What a history says of a document -/

/-- A notice that gives a server the text of a document, or part of it. -/
inductive DocumentNotice where
  | opened (params : DidOpenParams)
  | changed (params : DidChangeParams)
  deriving DecidableEq

namespace DocumentNotice

def uri : DocumentNotice → String
  | opened params => params.textDocument.uri
  | changed params => params.textDocument.uri

def version : DocumentNotice → Int32
  | opened params => params.textDocument.version.toInt32
  | changed params => params.textDocument.version

/-- The whole text a notice carries; none when it carries parts. -/
def text? : DocumentNotice → Option String
  | opened params => some params.textDocument.text
  | changed params =>
    match params.contentChanges with
    | [change] => if change.range.isNone then some change.text else none
    | _ => none

end DocumentNotice

namespace SyncEvent

def notice? (e : SyncEvent) : Option DocumentNotice :=
  match e.answer with
  | .opened (some params) => some (.opened params)
  | .changed (.send params) => some (.changed params)
  | .released (some params) => some (.changed params)
  | _ => none

/-- The notice of one document that was given out. -/
def noticeOf? (uri : String) (e : SyncEvent) : Option DocumentNotice :=
  e.notice?.filter (·.uri == uri)

/-- Whether the server forgets a document: it is told that the document was closed, or everything is
    dropped. -/
def ends (uri : String) (e : SyncEvent) : Bool :=
  match e.answer with
  | .dropped => true
  | .closed (some params) => params.textDocument.uri == uri
  | _ => false

/-- The text of a document that the editor gave and that was accepted: with its opening, or with a
    change that was not refused. -/
def acceptedText? (uri : String) (e : SyncEvent) : Option String :=
  match e.answer, e.op with
  | .opened (some _), .open d => if d.uri = uri then some d.text else none
  | .changed _, .change c => if c.uri = uri then some c.text else none
  | _, _ => none

/-- The staged change handed out, with its document. -/
def staging? (e : SyncEvent) : Option (String × StagedChange) :=
  match e.answer, e.op with
  | .changed (.staged generation), .change c =>
    some (c.uri, { version := c.version, text := c.text, generation })
  | _, _ => none

/-- The generation whose change was taken out when its delay was over. -/
def taken? (e : SyncEvent) : Option Nat :=
  match e.answer, e.op with
  | .released (some _), .takeStaged _ generation => some generation
  | _, _ => none

end SyncEvent

theorem SyncEvent.noticeOf?_eq_some {e : SyncEvent} {n : DocumentNotice} {uri : String}
    (h : e.notice? = some n) (same : n.uri = uri) : e.noticeOf? uri = some n := by
  simp [noticeOf?, h, Option.filter_some, same]

theorem SyncEvent.noticeOf?_eq_none {e : SyncEvent} {n : DocumentNotice} {uri : String}
    (h : e.notice? = some n) (other : n.uri ≠ uri) : e.noticeOf? uri = none := by
  simp [noticeOf?, h, Option.filter_some, other]

/-- The notices of a document since the server last forgot it. -/
def toldSinceOpening (uri : String) (h : List SyncEvent) : List DocumentNotice :=
  h.foldl (fun told e => if e.ends uri then [] else told ++ (e.noticeOf? uri).toList) []

/-- The text of a document that was accepted last. -/
def lastAcceptedText (uri : String) (h : List SyncEvent) : Option String :=
  (h.filterMap (·.acceptedText? uri)).getLast?

@[simp] theorem toldSinceOpening_nil (uri : String) : toldSinceOpening uri [] = [] := rfl

@[simp] theorem toldSinceOpening_concat (uri : String) (h : List SyncEvent) (e : SyncEvent) :
    toldSinceOpening uri (h ++ [e]) =
      if e.ends uri then [] else toldSinceOpening uri h ++ (e.noticeOf? uri).toList := by
  simp [toldSinceOpening]

/-- As long as the server does not forget the document, what it is told adds up. -/
theorem toldSinceOpening_append {uri : String} (before : List SyncEvent) {mid : List SyncEvent}
    (h : ∀ e ∈ mid, e.ends uri = false) :
    toldSinceOpening uri (before ++ mid)
      = toldSinceOpening uri before ++ mid.filterMap (·.noticeOf? uri) := by
  induction mid generalizing before with
  | nil => simp
  | cons e mid ih =>
    have kept := h e (by simp)
    have rest := ih (before ++ [e]) fun e' he' => h e' (by simp [he'])
    rw [List.append_assoc, List.singleton_append] at rest
    rw [rest, toldSinceOpening_concat, kept, List.filterMap_cons]
    cases e.noticeOf? uri <;> simp

theorem lastAcceptedText_concat (uri : String) (h : List SyncEvent) (e : SyncEvent) :
    lastAcceptedText uri (h ++ [e]) = (e.acceptedText? uri).or (lastAcceptedText uri h) := by
  cases accepted : e.acceptedText? uri <;> simp [lastAcceptedText, accepted]

/-! ## What an operation can do -/

namespace DocumentSync

/-- Every document with a staged change is one the server has open. -/
def Covered (s : DocumentSync) : Prop :=
  ∀ uri, s.announced.get? uri = none → s.staged.get? uri = none

/-- The effect of an operation: its answer and what becomes of the bookkeeping, case by case. -/
inductive Transition (s : DocumentSync) : SyncEvent → DocumentSync → Prop where
  | configured (kind : SyncKind) : Transition s ⟨.configure kind, .done⟩ { s with kind }
  | openPassed (d : Document) : Transition s ⟨.open d, .opened none⟩ s
  | opened (d : Document) (on : s.kind ≠ .none) (fresh : s.announced.get? d.uri = none) :
      Transition s ⟨.open d, .opened (some ⟨.ofDocument d⟩)⟩
        { s with announced := s.announced.put d.uri d.version }
  | changePassed (c : DocumentChange) (idle : s.announced.get? c.uri = none ∨ s.kind = .none) :
      Transition s ⟨.change c, .changed .ignore⟩ s
  | refused (c : DocumentChange) (lastSent : Int32)
      (announced : s.announced.get? c.uri = some lastSent)
      (older : c.version < s.newestVersion c.uri lastSent) :
      Transition s
        ⟨.change c, .refused (.staleVersion c.uri c.version (s.newestVersion c.uri lastSent))⟩ s
  | sent (c : DocumentChange) (lastSent : Int32) (incremental : s.kind = .incremental)
      (announced : s.announced.get? c.uri = some lastSent)
      (newer : ¬ c.version < s.newestVersion c.uri lastSent) :
      Transition s ⟨.change c, .changed (.send (didChange c.uri c.version c.changes))⟩
        { s with announced := s.announced.put c.uri c.version }
  | staged (c : DocumentChange) (lastSent : Int32) (full : s.kind = .full)
      (announced : s.announced.get? c.uri = some lastSent)
      (newer : ¬ c.version < s.newestVersion c.uri lastSent) :
      Transition s ⟨.change c, .changed (.staged (s.lastGeneration + 1))⟩
        { s.unstage c.uri with
          lastGeneration := s.lastGeneration + 1
          staged := (s.unstage c.uri).staged.put c.uri
            { version := c.version, text := c.text, generation := s.lastGeneration + 1 } }
  | releasePassed (op : SyncOp) : Transition s ⟨op, .released none⟩ s
  | released (op : SyncOp) (uri : String) (change : StagedChange) (lastSent : Int32)
      (asked : op = .flush uri ∨ op = .takeStaged uri change.generation)
      (present : s.staged.get? uri = some change)
      (announced : s.announced.get? uri = some lastSent) :
      Transition s ⟨op, .released (some (didChange uri change.version [.full change.text]))⟩
        { s.unstage uri with announced := s.announced.put uri change.version }
  | saved (uri : String) (text : Option String) (params : Option DidSaveParams) :
      Transition s ⟨.save uri text, .saved params⟩ s
  | closePassed (uri : String) : Transition s ⟨.close uri, .closed none⟩ s
  | closed (uri : String) (lastSent : Int32) (announced : s.announced.get? uri = some lastSent) :
      Transition s ⟨.close uri, .closed (some ⟨⟨uri⟩⟩)⟩
        { s.unstage uri with announced := s.announced.erase uri }
  | reset : Transition s ⟨.reset, .dropped⟩ s.reset

theorem isAnnounced_eq_true_iff {s : DocumentSync} {uri : String} :
    s.isAnnounced uri = true ↔ ∃ lastSent, s.announced.get? uri = some lastSent := by
  simp [isAnnounced, Table.has, Option.isSome_iff_exists]

/-- Releasing either finds nothing, or sends the staged change of an open document. -/
theorem release_cases {s : DocumentSync} (covered : s.Covered) (uri : String) :
    (s.staged.get? uri = none ∧ s.release uri = (none, s)) ∨
    ∃ change lastSent, s.staged.get? uri = some change ∧ s.announced.get? uri = some lastSent ∧
      s.release uri = (some (didChange uri change.version [.full change.text]),
        { s.unstage uri with announced := s.announced.put uri change.version }) := by
  cases present : s.staged.get? uri with
  | none => exact Or.inl ⟨rfl, by simp [release, present]⟩
  | some change =>
    obtain ⟨lastSent, announced⟩ : ∃ lastSent, s.announced.get? uri = some lastSent := by
      apply Option.ne_none_iff_exists'.mp
      intro closed
      simp [covered uri closed] at present
    have told : (s.unstage uri).isAnnounced uri = true :=
      isAnnounced_eq_true_iff.mpr ⟨lastSent, by simpa using announced⟩
    exact Or.inr ⟨change, lastSent, rfl, announced, by simp [release, present, told]⟩

/-- A change is ignored, refused, sent or staged. -/
theorem step_change_transition (s : DocumentSync) (c : DocumentChange) :
    Transition s ⟨.change c, (s.step (.change c)).1⟩ (s.step (.change c)).2 := by
  cases announced : s.announced.get? c.uri with
  | none => simpa [step, change, announced] using Transition.changePassed c (Or.inl announced)
  | some lastSent =>
    by_cases older : c.version < s.newestVersion c.uri lastSent
    · simpa [step, change, announced, older] using Transition.refused c lastSent announced older
    · cases kind : s.kind with
      | none =>
        simpa [step, change, announced, older, kind] using
          Transition.changePassed c (Or.inr kind)
      | incremental =>
        simpa [step, change, announced, older, kind] using
          Transition.sent c lastSent kind announced older
      | full =>
        simpa [step, change, announced, older, kind] using
          Transition.staged c lastSent kind announced older

theorem step_transition {s : DocumentSync} (covered : s.Covered) (op : SyncOp) :
    Transition s ⟨op, (s.step op).1⟩ (s.step op).2 := by
  cases op with
  | configure kind => exact .configured kind
  | «open» d =>
    by_cases passed : s.kind = .none ∨ s.isAnnounced d.uri ∨ !s.selector.selects d.languageId d.uri
    · have same : s.open d = (none, s) := if_pos passed
      simpa [step, same] using Transition.openPassed d
    · have told : s.open d = (some ⟨.ofDocument d⟩,
          { s with announced := s.announced.put d.uri d.version }) := if_neg passed
      have fresh : s.announced.get? d.uri = none := by
        have unknown : ¬ s.isAnnounced d.uri = true := fun h => passed (Or.inr (Or.inl h))
        simpa [isAnnounced, Table.has] using unknown
      simpa [step, told] using Transition.opened d (fun off => passed (Or.inl off)) fresh
  | change c => exact step_change_transition s c
  | takeStaged uri generation =>
    rcases release_cases covered uri with ⟨absent, -⟩ | ⟨change, lastSent, present, told, gone⟩
    · simpa [step, takeStaged, absent] using Transition.releasePassed (.takeStaged uri generation)
    · by_cases same : change.generation = generation
      · subst same
        simpa [step, takeStaged, present, gone] using
          Transition.released _ uri change lastSent (Or.inr rfl) present told
      · simpa [step, takeStaged, present, same] using
          Transition.releasePassed (.takeStaged uri generation)
  | flush uri =>
    rcases release_cases covered uri with ⟨-, passed⟩ | ⟨change, lastSent, present, told, gone⟩
    · simpa [step, flush, passed] using Transition.releasePassed (.flush uri)
    · simpa [step, flush, gone] using
        Transition.released _ uri change lastSent (Or.inl rfl) present told
  | save uri text => exact .saved uri text _
  | close uri =>
    cases announced : s.announced.get? uri with
    | none =>
      -- nothing is staged for a document the server does not have open
      have absent := unstage_of_get?_eq_none (covered uri announced)
      simpa [step, close, absent, isAnnounced, Table.has, announced] using
        Transition.closePassed uri
    | some lastSent =>
      simpa [step, close, isAnnounced, Table.has, announced] using
        Transition.closed uri lastSent announced
  | reset => exact .reset

theorem Transition.kind {s s' : DocumentSync} {e : SyncEvent} (t : Transition s e s')
    (configured : ∀ kind, e.op ≠ .configure kind) : s'.kind = s.kind := by
  cases t with
  | configured kind => exact absurd rfl (configured kind)
  | staged | released | closed => simp
  | _ => rfl

theorem Transition.selector {s s' : DocumentSync} {e : SyncEvent} (t : Transition s e s') :
    s'.selector = s.selector := by
  cases t with
  | staged | released | closed => simp
  | _ => rfl

/-- Releasing a change closes no document and opens none. -/
theorem Transition.isAnnounced_of_released {s s' : DocumentSync} {op : SyncOp}
    {params : Option DidChangeParams} (t : Transition s ⟨op, .released params⟩ s') (uri : String) :
    s'.isAnnounced uri = s.isAnnounced uri := by
  cases t with
  | releasePassed => rfl
  | released _ released change lastSent asked present announced =>
    by_cases same : released = uri
    · subst same
      simp [isAnnounced, Table.has, announced]
    · simp [isAnnounced, Table.has, same]

/-- Staged changes stay changes of open documents. -/
theorem Transition.covered {s s' : DocumentSync} {e : SyncEvent} (t : Transition s e s')
    (covered : s.Covered) : s'.Covered := by
  intro uri closed
  cases t with
  | configured | openPassed | changePassed | refused | releasePassed | saved | closePassed =>
    exact covered uri closed
  | opened d | sent d =>
    -- a document that is announced cannot be opened again
    have other : s.announced.get? uri = none := by
      simp only [Table.get?_put] at closed
      split at closed
      · simp at closed
      · exact closed
    exact covered uri other
  | staged c lastSent full announced =>
    have different : c.uri ≠ uri := by
      rintro rfl
      simp [announced] at closed
    simpa [different] using covered uri (by simpa using closed)
  | released op released change lastSent asked present announced =>
    -- what is released was staged, so its document is open
    have different : released ≠ uri := by
      rintro rfl
      simp at closed
    simpa [different] using covered uri (by simpa [different] using closed)
  | closed gone =>
    by_cases same : gone = uri
    · simp [same]
    · simpa [same] using covered uri (by simpa [same] using closed)
  | reset => rfl

theorem covered_new (selector : DocumentSelector) : (new selector).Covered := fun _ _ => rfl

theorem covered_run {s : DocumentSync} (covered : s.Covered) (ops : List SyncOp) :
    (s.run ops).Covered := by
  induction ops generalizing s with
  | nil => exact covered
  | cons op ops ih => exact ih ((step_transition covered op).covered covered)

/-- What holds at the start and is kept by every single effect holds after every run.  Each effect
    comes with the place of its operation in the run, for properties of runs that are restricted. -/
theorem run_induction {s : DocumentSync} (covered : s.Covered)
    {P : List SyncEvent → DocumentSync → Prop} (ops : List SyncOp) (start : P [] s)
    (step : ∀ before op after answer s', ops = before ++ op :: after →
      Transition (s.run before) ⟨op, answer⟩ s' →
      P (s.history before) (s.run before) → P (s.history before ++ [⟨op, answer⟩]) s') :
    P (s.history ops) (s.run ops) := by
  induction ops using List.reverseRecOn with
  | nil => exact start
  | append_singleton ops op ih =>
    have before : P (s.history ops) (s.run ops) := by
      refine ih fun earlier other later answer s' place => ?_
      exact step earlier other (later ++ [op]) answer s' (by simp [place])
    rw [run_append, history_append]
    exact step ops op [] _ _ rfl (step_transition (covered_run covered ops) op) before

/-! ## Operations that tell the server nothing -/

/-- A document that is new to the server is passed over just when it is not selected. -/
theorem open_of_fresh {s : DocumentSync} {d : Document} (on : s.kind ≠ .none)
    (fresh : s.isAnnounced d.uri = false) :
    s.open d = if s.selector.selects d.languageId d.uri then
      (some ⟨.ofDocument d⟩, { s with announced := s.announced.put d.uri d.version })
    else (none, s) := by
  cases selected : s.selector.selects d.languageId d.uri <;>
    simp [DocumentSync.open, on, fresh, selected]

/-- A document that the server is not told of changes nothing. -/
theorem open_of_fst_eq_none {s : DocumentSync} {d : Document} (passed : (s.open d).1 = none) :
    s.open d = (none, s) := by
  by_cases idle : s.kind = .none ∨ s.isAnnounced d.uri ∨ !s.selector.selects d.languageId d.uri
  · exact if_pos idle
  · rw [DocumentSync.open, if_neg idle] at passed
    simp at passed

/-- A change that is ignored changes nothing. -/
theorem eq_of_change_eq_ignore {s s' : DocumentSync} {c : DocumentChange}
    (ignored : s.change c = .ok (.ignore, s')) : s' = s := by
  unfold change at ignored
  split at ignored
  · simpa using ignored.symm
  · simp only at ignored
    split at ignored
    · simp at ignored
    · split at ignored
      · simpa using ignored.symm
      · simp at ignored
      · simp at ignored

theorem close_of_not_isAnnounced {s : DocumentSync} (covered : s.Covered) {uri : String}
    (closed : s.isAnnounced uri = false) : s.close uri = (none, s) := by
  have absent : s.announced.get? uri = none := by simpa [isAnnounced, Table.has] using closed
  simp [close, unstage_of_get?_eq_none (covered uri absent), closed]

theorem close_of_isAnnounced {s : DocumentSync} {uri : String} (announced : s.isAnnounced uri = true) :
    s.close uri =
      (some ⟨⟨uri⟩⟩, { s.unstage uri with announced := s.announced.erase uri }) := by
  have still : (s.unstage uri).isAnnounced uri = true := by
    simpa [isAnnounced] using announced
  simp [close, still]

end DocumentSync

end LanguageClient
