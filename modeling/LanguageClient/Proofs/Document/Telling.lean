import LanguageClient.Proofs.Document.Grammar
import LanguageClient.Proofs.Sync.History
import LanguageClient.Session.Document
/-!
# The bookkeeping and what a server was told

`DocumentSync` keeps which documents a server has open.  `Agrees` says that it is right, whatever the
server was told: `Telling` lists what a session may do, an operation with the notification that it
gives out or the notice of a save, and none of it breaks the agreement (`Agrees.telling`).
-/

namespace LanguageClient

open Session (notice)

/-! ## The notifications of a session -/

/-- What a notification tells of a document. -/
structure Notification.Tells (n : Notification) (kind : NoticeKind) (uri : String) : Prop where
  kind : n.kind? = some kind
  uri : n.uri? = some uri

namespace Notification

variable {n : Notification} {kind : NoticeKind} {uri : String}

theorem tells_didOpen (p : DidOpenParams) :
    (notice "textDocument/didOpen" p).Tells .didOpen p.textDocument.uri := ⟨rfl, rfl⟩

theorem tells_didChange (p : DidChangeParams) :
    (notice "textDocument/didChange" p).Tells .didChange p.textDocument.uri := ⟨rfl, rfl⟩

theorem tells_didClose (p : DidCloseParams) :
    (notice "textDocument/didClose" p).Tells .didClose p.textDocument.uri := ⟨rfl, rfl⟩

theorem tells_didSave (p : DidSaveParams) :
    (notice "textDocument/didSave" p).Tells .didSave p.textDocument.uri := by
  obtain ⟨d, _ | text⟩ := p <;> exact ⟨rfl, rfl⟩

theorem tells_willSave (uri : String) (reason : SaveReason) :
    (Session.willSaveNotice uri reason).Tells .willSave uri := ⟨rfl, rfl⟩

@[simp] theorem text?_didOpen (p : DidOpenParams) :
    (notice "textDocument/didOpen" p).text? = some p.textDocument.text := rfl

@[simp] theorem text?_didChange_full (uri : String) (version : Int32) (text : String) :
    (notice "textDocument/didChange" (DocumentSync.didChange uri version [.full text])).text? =
      some text := rfl

theorem Tells.concerns (tells : n.Tells kind uri) : n.concerns uri = true := by
  simp [Notification.concerns, tells.kind, tells.uri]

theorem Tells.concerns_eq_false (tells : n.Tells kind uri) {other : String} (ne : uri ≠ other) :
    n.concerns other = false := by
  simp [Notification.concerns, tells.uri, ne]

theorem Tells.take (tells : n.Tells kind uri) (state : DocumentState) :
    state.take n = state.takeKind kind n.text? := by
  simp [DocumentState.take, tells.kind]

end Notification

/-- The notification by which the answer of an operation is passed on to the server. -/
def SyncAnswer.notification? : SyncAnswer → Option Notification
  | .opened (some params) => some (notice "textDocument/didOpen" params)
  | .changed (.send params) | .released (some params) => some (notice "textDocument/didChange" params)
  | .closed (some params) => some (notice "textDocument/didClose" params)
  | _ => none

/-! ## Agreement -/

/-- The bookkeeping has open what the server has open by what it was told, and the server could take
    all of it. -/
structure Agrees (sync : DocumentSync) (ns : List Notification) : Prop where
  state : ∀ uri, ∃ state, serverState uri ns = some state ∧ state.isOpen = sync.isAnnounced uri
  readable : ∀ n ∈ ns, ∃ kind uri, n.Tells kind uri

/-- What somebody who may make some operations does about the documents at once: nothing, an operation
    on the bookkeeping with the notification for it, or the notice of a save of a document that the
    server has open. -/
inductive Telling (may : SyncOp → Prop) (sync : DocumentSync) :
    DocumentSync → List Notification → Prop where
  | silent : Telling may sync sync []
  | made (op : SyncOp) (answer : SyncAnswer) (sync' : DocumentSync) (allowed : may op)
      (done : sync.step op = (answer, sync')) (kept : op ≠ .reset)
      (configured : ∀ kind, op ≠ .configure kind) :
      Telling may sync sync' answer.notification?.toList
  | saving (n : Notification) (kind : NoticeKind) (uri : String) (tells : n.Tells kind uri)
      (save : kind = .willSave ∨ kind = .didSave) (announced : sync.isAnnounced uri = true) :
      Telling may sync sync [n]

/-- Whoever may make more operations may do the same. -/
theorem Telling.mono {may may' : SyncOp → Prop} {sync sync' : DocumentSync} {notes : List Notification}
    (telling : Telling may sync sync' notes) (more : ∀ op, may op → may' op) :
    Telling may' sync sync' notes := by
  cases telling with
  | silent => exact .silent
  | made op answer _ allowed done kept configured =>
    exact .made op answer sync' (more op allowed) done kept configured
  | saving n kind uri tells save announced => exact .saving n kind uri tells save announced

/-- Without synchronisation, a server that has nothing open is told nothing. -/
theorem Telling.of_none {may : SyncOp → Prop} {sync sync' : DocumentSync} {notes : List Notification}
    (telling : Telling may sync sync' notes) (covered : sync.Covered) (none : sync.kind = .none)
    (closed : ∀ uri, sync.isAnnounced uri = false) :
    notes = [] ∧ ∀ uri, sync'.isAnnounced uri = false := by
  have absent : ∀ {uri lastSent}, sync.announced.get? uri ≠ some lastSent := by
    intro uri lastSent announced
    have isAnnounced := closed uri
    simp [DocumentSync.isAnnounced_eq_true_iff.mpr ⟨lastSent, announced⟩] at isAnnounced
  cases telling with
  | silent => exact ⟨rfl, closed⟩
  | made op answer _ allowed done kept configured =>
    have effect : DocumentSync.Transition sync ⟨op, answer⟩ sync' := by
      simpa [done] using DocumentSync.step_transition covered op
    cases effect with
    | configured kind => exact absurd rfl (configured kind)
    | openPassed | changePassed | refused | releasePassed | saved | closePassed => exact ⟨rfl, closed⟩
    | opened d on fresh => exact absurd none on
    | sent c lastSent incremental announced newer => exact absurd announced absent
    | staged c lastSent full announced newer => exact absurd announced absent
    | released _ uri change lastSent asked present announced => exact absurd announced absent
    | closed uri lastSent announced => exact absurd announced absent
    | reset => exact absurd rfl kept
  | saving n kind uri tells save announced => simp [closed uri] at announced

namespace Agrees

variable {sync sync' : DocumentSync} {ns notes : List Notification} {n : Notification}
  {kind : NoticeKind} {uri : String}

/-- Nothing is told to a server that has nothing open. -/
theorem nil (closed : ∀ uri, sync.isAnnounced uri = false) : Agrees sync [] :=
  ⟨fun uri => ⟨.closed, rfl, (closed uri).symm⟩, by simp⟩

theorem congr (h : Agrees sync ns) (same : ∀ uri, sync'.isAnnounced uri = sync.isAnnounced uri) :
    Agrees sync' ns :=
  ⟨fun uri => by simpa [same uri] using h.state uri, h.readable⟩

/-- The server is told something of one document that it can take. -/
theorem concat (h : Agrees sync ns) (tells : n.Tells kind uri)
    (took : ∀ state : DocumentState, state.isOpen = sync.isAnnounced uri →
      ∃ state', state.takeKind kind n.text? = some state' ∧ state'.isOpen = sync'.isAnnounced uri)
    (others : ∀ other, uri ≠ other → sync'.isAnnounced other = sync.isAnnounced other) :
    Agrees sync' (ns ++ [n]) := by
  refine ⟨fun other => ?_, fun m among => ?_⟩
  · obtain ⟨state, read, isOpen⟩ := h.state other
    by_cases same : uri = other
    · subst same
      obtain ⟨state', taken, isOpen'⟩ := took state isOpen
      exact ⟨state', serverState_concat tells.concerns read ((tells.take state).trans taken), isOpen'⟩
    · rw [serverState_concat_other (tells.concerns_eq_false same), others other same]
      exact ⟨state, read, isOpen⟩
  · rcases List.mem_append.mp among with among | among
    · exact h.readable m among
    · obtain rfl := List.mem_singleton.mp among
      exact ⟨kind, uri, tells⟩

/-- A document that the server does not have open is opened. -/
theorem opening (h : Agrees sync ns) (tells : n.Tells .didOpen uri)
    (closed : sync.isAnnounced uri = false) (opened : sync'.isAnnounced uri = true)
    (others : ∀ other, uri ≠ other → sync'.isAnnounced other = sync.isAnnounced other) :
    Agrees sync' (ns ++ [n]) := by
  refine h.concat tells (fun state isOpen => ?_) others
  cases state with
  | closed => exact ⟨.opened n.text?, rfl, opened.symm⟩
  | opened text => simp [closed, DocumentState.isOpen] at isOpen

/-- The server is told something of a document that it has open. -/
theorem within (h : Agrees sync ns) (tells : n.Tells kind uri) (inner : kind.isInner = true)
    (announced : sync.isAnnounced uri = true)
    (same : ∀ other, sync'.isAnnounced other = sync.isAnnounced other) :
    Agrees sync' (ns ++ [n]) := by
  refine h.concat tells (fun state isOpen => ?_) fun other _ => same other
  cases state with
  | closed => simp [announced, DocumentState.isOpen] at isOpen
  | opened text =>
    cases kind with
    | didChange => exact ⟨.opened n.text?, rfl, ((same uri).trans announced).symm⟩
    | willSave | didSave => exact ⟨.opened text, rfl, ((same uri).trans announced).symm⟩
    | didOpen | didClose => simp [NoticeKind.isInner] at inner

/-- A document that the server has open is closed. -/
theorem closing (h : Agrees sync ns) (tells : n.Tells .didClose uri)
    (announced : sync.isAnnounced uri = true) (closed : sync'.isAnnounced uri = false)
    (others : ∀ other, uri ≠ other → sync'.isAnnounced other = sync.isAnnounced other) :
    Agrees sync' (ns ++ [n]) := by
  refine h.concat tells (fun state isOpen => ?_) others
  cases state with
  | closed => simp [announced, DocumentState.isOpen] at isOpen
  | opened text => exact ⟨.closed, rfl, closed.symm⟩

/-- An operation and the notification for it leave the bookkeeping and the server in agreement. -/
theorem transition {op : SyncOp} {answer : SyncAnswer} (h : Agrees sync ns)
    (transition : DocumentSync.Transition sync ⟨op, answer⟩ sync') (kept : op ≠ .reset) :
    Agrees sync' (ns ++ answer.notification?.toList) := by
  -- a document that is announced is one that the server has open
  have still : ∀ {uri lastSent}, sync.announced.get? uri = some lastSent →
      sync.isAnnounced uri = true := fun announced =>
    DocumentSync.isAnnounced_eq_true_iff.mpr ⟨_, announced⟩
  cases transition with
  | configured | openPassed | changePassed | refused | releasePassed | saved | closePassed =>
    simp only [SyncAnswer.notification?, Option.toList_none, List.append_nil]
    exact h.congr fun _ => rfl
  | opened d on fresh =>
    refine h.opening (Notification.tells_didOpen _) ?_ ?_ fun other ne => ?_
    · simp [TextDocumentItem.ofDocument, DocumentSync.isAnnounced, Table.has, fresh]
    · simp [TextDocumentItem.ofDocument, DocumentSync.isAnnounced, Table.has]
    · have ne : d.uri ≠ other := ne
      simp [DocumentSync.isAnnounced, Table.has, ne]
  | sent c lastSent incremental announced newer =>
    refine h.within (Notification.tells_didChange _) rfl (still announced) fun other => ?_
    by_cases same : c.uri = other
    · subst same
      simp [DocumentSync.isAnnounced, Table.has, announced]
    · simp [DocumentSync.isAnnounced, Table.has, same]
  | staged c lastSent full announced newer =>
    simp only [SyncAnswer.notification?, Option.toList_none, List.append_nil]
    exact h.congr fun other => by simp [DocumentSync.isAnnounced]
  | released _ uri change lastSent asked present announced =>
    refine h.within (Notification.tells_didChange _) rfl (still announced) fun other => ?_
    by_cases same : uri = other
    · subst same
      simp [DocumentSync.isAnnounced, Table.has, announced]
    · simp [DocumentSync.isAnnounced, Table.has, same]
  | closed uri lastSent announced =>
    refine h.closing (Notification.tells_didClose _) (still announced) ?_ fun other ne => ?_
    · simp [DocumentSync.isAnnounced, Table.has]
    · have ne : uri ≠ other := ne
      simp [DocumentSync.isAnnounced, Table.has, ne]
  | reset => exact absurd rfl kept

/-- **Telling keeps the agreement.** -/
theorem telling {may : SyncOp → Prop} (h : Agrees sync ns) (covered : sync.Covered)
    (telling : Telling may sync sync' notes) : Agrees sync' (ns ++ notes) := by
  cases telling with
  | silent => simpa using h
  | made op answer _ allowed done kept =>
    have effect := DocumentSync.step_transition covered op
    rw [done] at effect
    exact h.transition effect kept
  | saving n kind uri tells save announced =>
    refine h.within tells ?_ announced fun _ => rfl
    rcases save with rfl | rfl <;> rfl

end Agrees

end LanguageClient
