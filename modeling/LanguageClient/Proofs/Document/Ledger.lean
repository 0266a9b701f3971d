import LanguageClient.Proofs.Document.LastChange
/-!
# Accepted changes and told changes

A change that a session accepts is told to its server, unless a later one takes its place before.
`Keeps` says what this comes to when a list of notices is compared with the changes that were accepted
for a document: the notices tell some of the changes, in their order and each at most once, and the last
notice tells the last change.

The notices are those that the server was told since it has the document open (`changesTold`), and then
the one of the change that waits.  Nothing that a session does about its documents breaks this
(`DocumentSync.Transition.keeps`); that a document is closed ends both lists.
-/

namespace LanguageClient

open Session (notice)

/-! ## Notices of changes -/

/-- The notification that tells a change: with whole texts just the text, otherwise the edits. -/
def DocumentChange.notice (kind : SyncKind) (change : DocumentChange) : Notification :=
  Session.notice "textDocument/didChange" (DocumentSync.didChange change.uri change.version
    (if kind = .full then [.full change.text] else change.changes))

/-- The changes of a document that a server was told since it has the document open. -/
def changesTold (uri : String) (ns : List Notification) : List Notification :=
  ns.foldl (fun past n =>
    if n.uri? = some uri then
      match n.kind? with
      | some .didOpen | some .didClose => []
      | some .didChange => past ++ [n]
      | _ => past
    else past) []

@[simp] theorem changesTold_nil (uri : String) : changesTold uri [] = [] := rfl

section

variable {uri other : String} {ns : List Notification} {n : Notification} {kind : NoticeKind}

theorem changesTold_concat_other (tells : n.Tells kind other) (ne : other ≠ uri) :
    changesTold uri (ns ++ [n]) = changesTold uri ns := by
  simp [changesTold, tells.uri, ne]

theorem changesTold_didOpen (tells : n.Tells .didOpen uri) : changesTold uri (ns ++ [n]) = [] := by
  simp [changesTold, tells.uri, tells.kind]

theorem changesTold_didClose (tells : n.Tells .didClose uri) :
    changesTold uri (ns ++ [n]) = [] := by
  simp [changesTold, tells.uri, tells.kind]

theorem changesTold_didChange (tells : n.Tells .didChange uri) :
    changesTold uri (ns ++ [n]) = changesTold uri ns ++ [n] := by
  simp [changesTold, tells.uri, tells.kind]

theorem changesTold_save (tells : n.Tells kind other) (save : kind = .willSave ∨ kind = .didSave) :
    changesTold uri (ns ++ [n]) = changesTold uri ns := by
  rcases save with rfl | rfl <;> simp [changesTold, tells.uri, tells.kind]

end

namespace DocumentSync

/-- The notice of the change that waits for a document, if one does. -/
def waiting (sync : DocumentSync) (uri : String) : List Notification :=
  ((sync.staged.get? uri).map (·.notice uri)).toList

theorem waiting_congr {sync sync' : DocumentSync} {uri : String}
    (same : sync'.staged.get? uri = sync.staged.get? uri) : sync'.waiting uri = sync.waiting uri := by
  rw [waiting, same, waiting]

theorem waiting_eq_nil {sync : DocumentSync} {uri : String} (none : sync.staged.get? uri = none) :
    sync.waiting uri = [] := by
  rw [waiting, none]
  rfl

/-- A change waits only with full synchronisation. -/
def Waits (sync : DocumentSync) : Prop :=
  sync.kind = .full ∨ ∀ uri, sync.staged.get? uri = none

end DocumentSync

/-- The change of a document that an operation has accepted. -/
def SyncEvent.accepted? (uri : String) : SyncEvent → Option DocumentChange
  | ⟨.change c, .changed (.send _)⟩ | ⟨.change c, .changed (.staged _)⟩ =>
    if c.uri = uri then some c else none
  | _ => none

/-! ## Keeping up -/

/-- Some notices keep up with the changes that were accepted: they tell some of the changes, in their
    order and each at most once, and the last notice tells the last change. -/
structure Keeps (kind : SyncKind) (notices : List Notification) (accepted : List DocumentChange) :
    Prop where
  inOrder : notices.Sublist (accepted.map (·.notice kind))
  last : notices.getLast? = (accepted.map (·.notice kind)).getLast?

namespace Keeps

variable {kind : SyncKind} {notices told : List Notification} {accepted : List DocumentChange}

theorem nil (kind : SyncKind) : Keeps kind [] [] := ⟨.refl _, rfl⟩

/-- The notice of a change that has just been accepted takes the place of those that were not told. -/
theorem concat (keeps : Keeps kind notices accepted) (first : told <+: notices) (c : DocumentChange) :
    Keeps kind (told ++ [c.notice kind]) (accepted ++ [c]) := by
  constructor
  · rw [List.map_append]
    exact (first.sublist.trans keeps.inOrder).append (.refl _)
  · simp

theorem eq_nil (keeps : Keeps kind notices []) : notices = [] :=
  List.sublist_nil.mp keeps.inOrder

end Keeps

namespace DocumentSync

variable {sync sync' : DocumentSync} {op : SyncOp} {answer : SyncAnswer} {ns : List Notification}
  {uri : String} {accepted : List DocumentChange}

theorem Transition.waits (effect : Transition sync ⟨op, answer⟩ sync') (waits : sync.Waits)
    (configured : ∀ kind, op ≠ .configure kind) : sync'.Waits := by
  cases effect with
  | configured kind => exact absurd rfl (configured kind)
  | staged c lastSent full => exact Or.inl (by simpa using full)
  | released _ other change lastSent _ present _ =>
    refine Or.inl ?_
    simpa using waits.resolve_right fun nothing => by simp [nothing] at present
  | closed other =>
    refine waits.imp (fun full => by simpa using full) fun nothing uri => ?_
    by_cases same : other = uri <;> simp [same, nothing]
  | reset => exact Or.inr fun uri => rfl
  | _ => exact waits

/-- **Operations keep up.**  What the server is told of a document, and what waits for it, keeps up with
    the changes that were accepted. -/
theorem Transition.keeps (effect : Transition sync ⟨op, answer⟩ sync') (covered : sync.Covered)
    (waits : sync.Waits) (configured : ∀ kind, op ≠ .configure kind) (kept : op ≠ .reset)
    (closed : sync.isAnnounced uri = false → accepted = [])
    (keeps : Keeps sync.kind (changesTold uri ns ++ sync.waiting uri) accepted) :
    Keeps sync.kind (changesTold uri (ns ++ answer.notification?.toList) ++ sync'.waiting uri)
      (if sync'.isAnnounced uri then accepted ++ (SyncEvent.accepted? uri ⟨op, answer⟩).toList
        else []) := by
  have result : ∀ {told waits : List Notification} {more : Option DocumentChange},
      changesTold uri (ns ++ answer.notification?.toList) = told → sync'.waiting uri = waits →
      sync'.isAnnounced uri = true → SyncEvent.accepted? uri ⟨op, answer⟩ = more →
      Keeps sync.kind (told ++ waits) (accepted ++ more.toList) →
      Keeps sync.kind (changesTold uri (ns ++ answer.notification?.toList) ++ sync'.waiting uri)
        (if sync'.isAnnounced uri then accepted ++ (SyncEvent.accepted? uri ⟨op, answer⟩).toList
          else []) := by
    rintro told waits more rfl rfl still rfl keeps
    rwa [still, if_pos rfl]
  -- where the server is told nothing of the document, nothing is accepted, and it stays as it was
  have apart : sync'.staged.get? uri = sync.staged.get? uri →
      sync'.isAnnounced uri = sync.isAnnounced uri →
      changesTold uri (ns ++ answer.notification?.toList) = changesTold uri ns →
      SyncEvent.accepted? uri ⟨op, answer⟩ = none →
      Keeps sync.kind (changesTold uri (ns ++ answer.notification?.toList) ++ sync'.waiting uri)
        (if sync'.isAnnounced uri then accepted ++ (SyncEvent.accepted? uri ⟨op, answer⟩).toList
          else []) := by
    intro staged still told none
    cases announced : sync.isAnnounced uri with
    | true => exact result told (waiting_congr staged) (still.trans announced) none (by simpa using keeps)
    | false => simpa [told, waiting_congr staged, still, announced, closed announced] using keeps
  cases effect with
  | configured kind => exact absurd rfl (configured kind)
  | reset => exact absurd rfl kept
  | openPassed | changePassed | refused | releasePassed | saved | closePassed =>
    exact apart rfl rfl (by simp [SyncAnswer.notification?]) (by simp [SyncEvent.accepted?])
  | opened d on fresh =>
    have tells := Notification.tells_didOpen ⟨.ofDocument d⟩
    by_cases same : d.uri = uri
    · subst same
      -- nothing was accepted for a document that was not open, and nothing waits for it
      have unknown : sync.isAnnounced d.uri = false := by simp [isAnnounced, Table.has, fresh]
      refine result (changesTold_didOpen tells) (waiting_eq_nil (covered d.uri fresh))
        (by simp [isAnnounced, Table.has]) (rfl : _ = none) ?_
      simpa [closed unknown] using Keeps.nil sync.kind
    · exact apart rfl (by simp [isAnnounced, Table.has, same]) (changesTold_concat_other tells same)
        (by simp [SyncEvent.accepted?])
  | sent c lastSent incremental announced newer =>
    have tells := Notification.tells_didChange (didChange c.uri c.version c.changes)
    by_cases same : c.uri = uri
    · subst same
      have nothing : sync.staged.get? c.uri = none := by
        rcases waits with full | nothing
        · simp [full] at incremental
        · exact nothing c.uri
      have told : notice "textDocument/didChange" (didChange c.uri c.version c.changes) =
          c.notice sync.kind := by
        simp [DocumentChange.notice, incremental]
      refine result (changesTold_didChange tells) (waiting_eq_nil nothing)
        (by simp [isAnnounced, Table.has]) (if_pos rfl) ?_
      rw [told, List.append_nil]
      exact keeps.concat (List.prefix_append _ _) c
    · exact apart rfl (by simp [isAnnounced, Table.has, same]) (changesTold_concat_other tells same)
        (if_neg same)
  | staged c lastSent full announced newer =>
    by_cases same : c.uri = uri
    · subst same
      have told : StagedChange.notice ⟨c.version, c.text, sync.lastGeneration + 1⟩ c.uri =
          c.notice sync.kind := by
        simp [DocumentChange.notice, StagedChange.notice, full]
      have open' : sync.isAnnounced c.uri = true := isAnnounced_eq_true_iff.mpr ⟨lastSent, announced⟩
      have queued : (((sync.unstage c.uri).staged.put c.uri
          ⟨c.version, c.text, sync.lastGeneration + 1⟩).get? c.uri).map (·.notice c.uri) =
          some (c.notice sync.kind) := by simp [told]
      refine result (by simp [SyncAnswer.notification?] : _ = changesTold c.uri ns)
        (congrArg Option.toList queued) (by simpa [isAnnounced] using open') (if_pos rfl) ?_
      exact keeps.concat (List.prefix_append _ _) c
    · exact apart (by simp [same]) (by simp [isAnnounced]) (by simp [SyncAnswer.notification?])
        (if_neg same)
  | released _ other change lastSent asked present announced =>
    have tells := change.tells_notice other
    have none : SyncEvent.accepted? uri
        ⟨op, .released (some (didChange other change.version [.full change.text]))⟩ = none := by
      cases op <;> rfl
    by_cases same : other = uri
    · subst same
      -- what waited is told now
      have before : sync.waiting other = [change.notice other] := by simp [waiting, present]
      refine result (changesTold_didChange tells) (waiting_eq_nil (by simp))
        (by simp [isAnnounced, Table.has]) none ?_
      have notice_eq : change.notice other = notice "textDocument/didChange"
          (didChange other change.version [.full change.text]) := rfl
      simpa [before, notice_eq] using keeps
    · exact apart (by simp [same]) (by simp [isAnnounced, Table.has, same])
        (changesTold_concat_other tells same) none
  | closed other lastSent announced =>
    have tells := Notification.tells_didClose ⟨⟨other⟩⟩
    by_cases same : other = uri
    · subst same
      have told : changesTold other (ns ++ [notice "textDocument/didClose"
          (⟨⟨other⟩⟩ : DidCloseParams)]) = [] := changesTold_didClose tells
      have gone : isAnnounced
          { sync.unstage other with announced := sync.announced.erase other } other = false := by
        simp [isAnnounced, Table.has]
      have after : waiting
          { sync.unstage other with announced := sync.announced.erase other } other = [] :=
        waiting_eq_nil (by simp)
      rw [gone, after]
      simpa [SyncAnswer.notification?, told] using Keeps.nil sync.kind
    · exact apart (by simp [same]) (by simp [isAnnounced, Table.has, same])
        (changesTold_concat_other tells same) (by simp [SyncEvent.accepted?])

end DocumentSync

end LanguageClient
