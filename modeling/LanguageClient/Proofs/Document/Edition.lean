import LanguageClient.Proofs.Document.Telling
import LanguageClient.Proofs.Sync.VersionOrder
/-!
# Editions of a document

What counts of an open document is the version and the text that it was given last, its edition.
`DocumentSelector.read` says what a reader of events has of a document: it takes a document that it
does not have when it is opened, an edit unless it is older than what it has, and it gives a document up
when it is closed.

A session reads events in the same way, but an edit may wait before the server is told of it.  `Reached`
says that an edition has got as far as the bookkeeping: it waits, or the server has it.  Each operation
on the bookkeeping that is made for an event reads this event (`Reached.made`), and nothing else that a
session tells changes what was reached (`Reached.telling`).
-/

namespace LanguageClient

open Session (notice)

/-- What counts of an open document. -/
structure Edition where
  version : Int32
  text : String
  deriving DecidableEq, Repr

def Document.edition (d : Document) : Edition := ⟨d.version, d.text⟩

def DocumentChange.edition (c : DocumentChange) : Edition := ⟨c.version, c.text⟩

def StagedChange.edition (change : StagedChange) : Edition := ⟨change.version, change.text⟩

/-! ## Reading events -/

namespace DocumentSelector

/-- What a reader of events has of a document after one more of them. -/
def read (selector : DocumentSelector) (uri : String) (edition : Option Edition) :
    DocumentEvent → Option Edition
  | .opened d =>
    if edition = none ∧ d.uri = uri ∧ selector.selects d.languageId d.uri = true then some d.edition
    else edition
  | .changed c =>
    edition.map fun e => if c.uri = uri ∧ ¬ c.version < e.version then c.edition else e
  | .closed closed => if closed = uri then none else edition
  | .willSave .. | .saved .. => edition

/-- What a reader has of a document after some events. -/
def readAll (selector : DocumentSelector) (uri : String) (edition : Option Edition)
    (events : List DocumentEvent) : Option Edition :=
  events.foldl (selector.read uri) edition

variable (selector : DocumentSelector) {uri : String} (edition : Option Edition)

@[simp] theorem readAll_nil : selector.readAll uri edition [] = edition := rfl

@[simp] theorem readAll_cons (e : DocumentEvent) (events : List DocumentEvent) :
    selector.readAll uri edition (e :: events) =
      selector.readAll uri (selector.read uri edition e) events := rfl

@[simp] theorem readAll_append (events more : List DocumentEvent) :
    selector.readAll uri edition (events ++ more) =
      selector.readAll uri (selector.readAll uri edition events) more :=
  List.foldl_append

/-- An event of another document is nothing to the reader of this one. -/
theorem read_other {e : DocumentEvent} (other : e.uri ≠ uri) :
    selector.read uri edition e = edition := by
  cases e with
  | opened d => exact if_neg fun h => other h.2.1
  | changed c =>
    have other : c.uri ≠ uri := other
    simp [read, other]
  | closed closed => exact if_neg other
  | willSave | saved => rfl

theorem readAll_others {events : List DocumentEvent} (others : ∀ e ∈ events, e.uri ≠ uri) :
    selector.readAll uri edition events = edition := by
  induction events with
  | nil => rfl
  | cons e events ih =>
    rw [readAll_cons, selector.read_other edition (others e (by simp))]
    exact ih fun e among => others e (by simp [among])

end DocumentSelector

/-! ## Events and operations -/

/-- The operation on the bookkeeping that an event asks for; none when it is about a save. -/
def DocumentEvent.op? : DocumentEvent → Option SyncOp
  | .opened d => some (.open d)
  | .changed c => some (.change c)
  | .closed uri => some (.close uri)
  | .willSave .. | .saved .. => none

/-- An edit gives the whole text. -/
def DocumentEvent.Whole : DocumentEvent → Prop
  | .changed c => c.changes = [.full c.text]
  | _ => True

/-- An operation that is made for an event. -/
def SyncOp.IsEvent : SyncOp → Prop
  | .open _ | .change _ | .close _ => True
  | _ => False

/-! ## What has reached the bookkeeping -/

/-- An edition of a document has reached the bookkeeping, and what was told by then has it, or lacks no
    more than what waits. -/
inductive Reached (sync : DocumentSync) (ns : List Notification) (uri : String) :
    Option Edition → Prop where
  | closed (unknown : sync.announced.get? uri = none) (read : serverState uri ns = some .closed) :
      Reached sync ns uri none
  | told (edition : Edition) (announced : sync.announced.get? uri = some edition.version)
      (idle : sync.staged.get? uri = none)
      (read : serverState uri ns = some (.opened (some edition.text))) :
      Reached sync ns uri (some edition)
  | waiting (change : StagedChange) (lastSent : Int32) (text : Option String)
      (full : sync.kind = .full) (announced : sync.announced.get? uri = some lastSent)
      (waits : sync.staged.get? uri = some change) (newer : ¬ change.version < lastSent)
      (read : serverState uri ns = some (.opened text)) :
      Reached sync ns uri (some change.edition)

namespace Reached

variable {sync sync' : DocumentSync} {ns notes : List Notification} {n : Notification}
  {kind : NoticeKind} {uri other : String} {edition : Option Edition}

/-- Nothing has reached a bookkeeping that has nothing open and has told nothing. -/
theorem nothing (closed : ∀ uri, sync.isAnnounced uri = false) (uri : String) :
    Reached sync [] uri none := by
  apply Reached.closed
  · simpa [DocumentSync.isAnnounced, Table.has] using closed uri
  · rfl

theorem isAnnounced (reached : Reached sync ns uri edition) :
    sync.isAnnounced uri = edition.isSome := by
  cases reached with
  | closed unknown => simp [DocumentSync.isAnnounced, Table.has, unknown]
  | told edition announced => simp [DocumentSync.isAnnounced, Table.has, announced]
  | waiting change lastSent text full announced =>
    simp [DocumentSync.isAnnounced, Table.has, announced]

/-- The server has the document of an edition open. -/
theorem exists_opened {edition : Edition} (reached : Reached sync ns uri (some edition)) :
    ∃ text, serverState uri ns = some (.opened text) := by
  cases reached with
  | told edition announced idle read => exact ⟨_, read⟩
  | waiting change lastSent text full announced waits newer read => exact ⟨text, read⟩

/-- When nothing waits, the server has the edition. -/
theorem serverState_eq {edition : Edition} (reached : Reached sync ns uri (some edition))
    (idle : sync.staged.get? uri = none) :
    serverState uri ns = some (.opened (some edition.text)) := by
  cases reached with
  | told edition announced idle read => exact read
  | waiting change lastSent text full announced waits => simp [idle] at waits

/-- The newest version is the one of the edition. -/
theorem newestVersion {edition : Edition} {lastSent : Int32}
    (reached : Reached sync ns uri (some edition))
    (announced : sync.announced.get? uri = some lastSent) :
    sync.newestVersion uri lastSent = edition.version := by
  cases reached with
  | told edition told idle =>
    rw [DocumentSync.newestVersion, idle]
    exact Option.some.inj (announced.symm.trans told)
  | waiting change lastSent' text full told waits newer =>
    obtain rfl : lastSent = lastSent' := Option.some.inj (announced.symm.trans told)
    simp [DocumentSync.newestVersion, waits, newer, StagedChange.edition]

/-- Only what is kept and told of the document itself counts. -/
theorem congr (reached : Reached sync ns uri edition) (kind : sync'.kind = sync.kind)
    (announced : sync'.announced.get? uri = sync.announced.get? uri)
    (staged : sync'.staged.get? uri = sync.staged.get? uri)
    (read : serverState uri (ns ++ notes) = serverState uri ns) :
    Reached sync' (ns ++ notes) uri edition := by
  cases reached with
  | closed unknown was => exact .closed (announced.trans unknown) (read.trans was)
  | told edition known idle was =>
    exact .told edition (announced.trans known) (staged.trans idle) (read.trans was)
  | waiting change lastSent text full known waits newer was =>
    exact .waiting change lastSent text (kind.trans full) (announced.trans known)
      (staged.trans waits) newer (read.trans was)

/-- What is told of another document does not count. -/
theorem apart (reached : Reached sync ns uri edition) (tells : n.Tells kind other) (ne : other ≠ uri)
    (kind : sync'.kind = sync.kind)
    (announced : sync'.announced.get? uri = sync.announced.get? uri)
    (staged : sync'.staged.get? uri = sync.staged.get? uri) :
    Reached sync' (ns ++ [n]) uri edition :=
  reached.congr kind announced staged (serverState_concat_other (tells.concerns_eq_false ne))

/-- The server is given the text of an open document. -/
theorem of_didChange {edition : Edition} {text : Option String} (tells : n.Tells .didChange uri)
    (gives : n.text? = some edition.text) (read : serverState uri ns = some (.opened text))
    (announced : sync'.announced.get? uri = some edition.version)
    (idle : sync'.staged.get? uri = none) : Reached sync' (ns ++ [n]) uri (some edition) := by
  refine .told edition announced idle (serverState_concat tells.concerns read ?_)
  rw [tells.take, gives]
  rfl

/-! ### Operations for events -/

theorem opening (reached : Reached sync ns uri edition) (on : sync.kind ≠ .none)
    (covered : sync.Covered) (d : Document) :
    Reached (sync.step (.open d)).2 (ns ++ (sync.step (.open d)).1.notification?.toList) uri
      (sync.selector.read uri edition (.opened d)) := by
  -- when the server is told nothing, the document is announced or it is not chosen
  have passed : sync.open d = (none, sync) →
      (edition = none → d.uri = uri → sync.selector.selects d.languageId d.uri = false) →
      Reached (sync.step (.open d)).2 (ns ++ (sync.step (.open d)).1.notification?.toList) uri
        (sync.selector.read uri edition (.opened d)) := by
    intro same unfit
    have kept : sync.selector.read uri edition (.opened d) = edition := by
      refine if_neg fun h => ?_
      simp [unfit h.1 h.2.1] at h
    rw [kept]
    simpa [DocumentSync.step, same, SyncAnswer.notification?] using reached
  cases announced : sync.isAnnounced d.uri with
  | true =>
    refine passed (by simp [DocumentSync.open, announced]) fun none about => ?_
    simp [about, reached.isAnnounced, none] at announced
  | false =>
    cases chosen : sync.selector.selects d.languageId d.uri with
    | false => exact passed (by simp [DocumentSync.open, chosen]) fun _ _ => chosen
    | true =>
      have opened := DocumentSync.open_of_fresh on announced
      simp only [chosen, if_true] at opened
      have tells := Notification.tells_didOpen ⟨.ofDocument d⟩
      simp only [DocumentSync.step, opened, SyncAnswer.notification?, Option.toList_some]
      by_cases about : d.uri = uri
      · subst about
        cases reached with
        | closed unknown read =>
          rw [DocumentSelector.read, if_pos ⟨rfl, rfl, chosen⟩]
          exact .told d.edition (by simp [Document.edition]) (covered d.uri unknown)
            (serverState_concat tells.concerns read (tells.take _))
        | told edition known => simp [DocumentSync.isAnnounced, Table.has, known] at announced
        | waiting change lastSent text full known =>
          simp [DocumentSync.isAnnounced, Table.has, known] at announced
      · rw [DocumentSelector.read_other (e := .opened d) _ _ about]
        exact reached.apart tells about rfl (by simp [about]) rfl

theorem changing (reached : Reached sync ns uri edition) (on : sync.kind ≠ .none)
    (covered : sync.Covered) {c : DocumentChange} (whole : c.changes = [.full c.text]) :
    Reached (sync.step (.change c)).2 (ns ++ (sync.step (.change c)).1.notification?.toList) uri
      (sync.selector.read uri edition (.changed c)) := by
  -- of this document, an older edit is not taken, and any other one is the new edition
  have older : ∀ {lastSent}, sync.announced.get? c.uri = some lastSent →
      c.version < sync.newestVersion c.uri lastSent → c.uri = uri →
      sync.selector.read uri edition (.changed c) = edition := by
    rintro lastSent announced older rfl
    cases edition with
    | none => rfl
    | some edition =>
      rw [reached.newestVersion announced] at older
      simp [DocumentSelector.read, older]
  have taken : ∀ {lastSent}, sync.announced.get? c.uri = some lastSent →
      ¬ c.version < sync.newestVersion c.uri lastSent → c.uri = uri →
      sync.selector.read uri edition (.changed c) = some c.edition ∧
        ∃ text, serverState uri ns = some (.opened text) := by
    rintro lastSent announced newer rfl
    cases edition with
    | none =>
      have unknown := reached.isAnnounced
      simp [DocumentSync.isAnnounced, Table.has, announced] at unknown
    | some edition =>
      rw [reached.newestVersion announced] at newer
      exact ⟨by simp [DocumentSelector.read, newer], reached.exists_opened⟩
  cases done : sync.step (.change c) with
  | mk answer sync' =>
    have effect : DocumentSync.Transition sync ⟨.change c, answer⟩ sync' := by
      simpa [done] using DocumentSync.step_transition covered (.change c)
    by_cases about : c.uri = uri
    · cases effect with
      | changePassed _ idle =>
        cases reached with
        | closed unknown read =>
          simpa [SyncAnswer.notification?, DocumentSelector.read] using Reached.closed unknown read
        | told _ known | waiting _ _ _ _ known => simp [about, known, on] at idle
      | refused _ lastSent announced stale =>
        rw [older announced stale about]
        simpa [SyncAnswer.notification?] using reached
      | sent _ lastSent incremental announced newer =>
        obtain ⟨new, text, read⟩ := taken announced newer about
        subst about
        have idle : sync.staged.get? c.uri = none := by
          cases reached with
          | closed unknown => exact covered c.uri unknown
          | told _ _ idle => exact idle
          | waiting _ _ _ full => simp [full] at incremental
        rw [new]
        refine of_didChange (Notification.tells_didChange _) ?_ read
          (by simp [DocumentChange.edition]) idle
        rw [whole]
        rfl
      | staged _ lastSent full announced newer =>
        obtain ⟨new, text, read⟩ := taken announced newer about
        subst about
        rw [new]
        refine .waiting ⟨c.version, c.text, sync.lastGeneration + 1⟩ lastSent text
          (by simpa using full) (by simpa using announced) (by simp) ?_
          (by simpa [SyncAnswer.notification?] using read)
        exact Int32.not_lt.mpr (DocumentSync.le_of_not_lt_newestVersion newer)
      | releasePassed =>
        -- a change is not answered in this way
        simp only [DocumentSync.step] at done
        split at done <;> simp at done
      | released _ _ _ _ asked => simp at asked
    · rw [DocumentSelector.read_other (e := .changed c) _ _ about]
      cases effect with
      | changePassed | refused | releasePassed => simpa [SyncAnswer.notification?] using reached
      | sent _ lastSent incremental announced newer =>
        exact reached.apart (Notification.tells_didChange _) about rfl (by simp [about]) rfl
      | staged _ lastSent full announced newer =>
        exact reached.congr (by simp) (by simp) (by simp [about]) (by simp [SyncAnswer.notification?])
      | released _ _ _ _ asked => simp at asked

theorem closing (reached : Reached sync ns uri edition) (covered : sync.Covered) (closed : String) :
    Reached (sync.step (.close closed)).2 (ns ++ (sync.step (.close closed)).1.notification?.toList) uri
      (sync.selector.read uri edition (.closed closed)) := by
  cases announced : sync.isAnnounced closed with
  | false =>
    have same := DocumentSync.close_of_not_isAnnounced covered announced
    -- a closing that nobody was told of is none for the edition either
    have kept : sync.selector.read uri edition (.closed closed) = edition := by
      by_cases about : closed = uri
      · subst about
        cases edition with
        | none => simp [DocumentSelector.read]
        | some edition => simp [reached.isAnnounced] at announced
      · exact DocumentSelector.read_other (e := .closed closed) _ _ about
    rw [kept]
    simpa [DocumentSync.step, same, SyncAnswer.notification?] using reached
  | true =>
    have told := DocumentSync.close_of_isAnnounced announced
    have tells := Notification.tells_didClose ⟨⟨closed⟩⟩
    simp only [DocumentSync.step, told, SyncAnswer.notification?, Option.toList_some]
    -- the closing ends the edition of its own document, and leaves all others
    by_cases about : closed = uri
    · subst about
      cases edition with
      | none => simp [reached.isAnnounced] at announced
      | some edition =>
        obtain ⟨text, read⟩ := reached.exists_opened
        rw [DocumentSelector.read, if_pos rfl]
        exact .closed (by simp) (serverState_concat tells.concerns read (tells.take _))
    · rw [DocumentSelector.read_other (e := .closed closed) _ _ about]
      exact reached.apart tells about (by simp) (by simp [about]) (by simp [about])

/-- **Reading through the bookkeeping.**  The operation that is made for an event reads the event. -/
theorem made (reached : Reached sync ns uri edition) (on : sync.kind ≠ .none) (covered : sync.Covered)
    {e : DocumentEvent} (whole : e.Whole) {op : SyncOp} (asks : e.op? = some op) :
    Reached (sync.step op).2 (ns ++ (sync.step op).1.notification?.toList) uri
      (sync.selector.read uri edition e) := by
  cases e with
  | opened d =>
    obtain rfl := Option.some.inj asks
    exact reached.opening on covered d
  | changed c =>
    obtain rfl := Option.some.inj asks
    exact reached.changing on covered whole
  | closed closed =>
    obtain rfl := Option.some.inj asks
    exact reached.closing covered closed
  | willSave | saved => simp [DocumentEvent.op?] at asks

/-! ### Everything else -/

theorem releasing {op : SyncOp} {answer : SyncAnswer} (reached : Reached sync ns uri edition)
    (effect : DocumentSync.Transition sync ⟨op, answer⟩ sync') (other : ¬ op.IsEvent) (kept : op ≠ .reset)
    (configured : ∀ kind, op ≠ .configure kind) :
    Reached sync' (ns ++ answer.notification?.toList) uri edition := by
  cases effect with
  | configured kind => exact absurd rfl (configured kind)
  | reset => exact absurd rfl kept
  | openPassed | opened | changePassed | refused | sent | staged | closePassed | closed =>
    exact absurd trivial other
  | releasePassed | saved => simpa [SyncAnswer.notification?] using reached
  | released _ released change lastSent asked present announced =>
    have tells := Notification.tells_didChange
      (DocumentSync.didChange released change.version [.full change.text])
    by_cases about : released = uri
    · subst about
      cases reached with
      | closed unknown => simp [unknown] at announced
      | told edition known idle => simp [idle] at present
      | waiting change' lastSent' text full known waits newer read =>
        obtain rfl : change = change' := Option.some.inj (present.symm.trans waits)
        exact of_didChange tells rfl read (by simp [StagedChange.edition]) (by simp)
    · exact reached.apart tells about (by simp) (by simp [about]) (by simp [about])

theorem saving (reached : Reached sync ns uri edition) (tells : n.Tells kind other)
    (save : kind = .willSave ∨ kind = .didSave) (announced : sync.isAnnounced other = true) :
    Reached sync (ns ++ [n]) uri edition := by
  by_cases about : other = uri
  · subst about
    cases edition with
    | none => simp [reached.isAnnounced] at announced
    | some edition =>
      obtain ⟨text, read⟩ := reached.exists_opened
      refine reached.congr rfl rfl rfl ?_
      rw [read]
      refine serverState_concat tells.concerns read ?_
      rw [tells.take]
      rcases save with rfl | rfl <;> rfl
  · exact reached.apart tells about rfl rfl rfl

/-- Whoever makes no operation for an event leaves everything that was reached. -/
theorem telling {may : SyncOp → Prop} (reached : Reached sync ns uri edition) (covered : sync.Covered)
    (telling : Telling may sync sync' notes) (other : ∀ op, may op → ¬ op.IsEvent) :
    Reached sync' (ns ++ notes) uri edition := by
  cases telling with
  | silent => simpa using reached
  | made op answer _ allowed done kept configured =>
    have effect : DocumentSync.Transition sync ⟨op, answer⟩ sync' := by
      simpa [done] using DocumentSync.step_transition covered op
    exact reached.releasing effect (other op allowed) kept configured
  | saving n kind about tells save announced => exact reached.saving tells save announced

end Reached

end LanguageClient
