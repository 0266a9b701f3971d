import LanguageClient.Proofs.Document.Telling
/-!
# The change that a server was told last

With full synchronisation a change waits for a while before the server is told of it.  `Upheld` says
that the change of a document accepted last still waits, or is the one told last; `Telling.upheld` shows
that nothing a session does about its documents breaks this.
-/

namespace LanguageClient

open Session (notice)

/-! ## The change told last -/

/-- The last `didChange` of a document since it was opened. -/
def lastChange (uri : String) (ns : List Notification) : Option Notification :=
  ns.foldl (fun last n =>
    if n.uri? = some uri then
      match n.kind? with
      | some .didOpen | some .didClose => none
      | some .didChange => some n
      | _ => last
    else last) none

@[simp] theorem lastChange_nil (uri : String) : lastChange uri [] = none := rfl

section

variable {uri other : String} {ns : List Notification} {n : Notification} {kind : NoticeKind}

theorem lastChange_concat_other (tells : n.Tells kind other) (ne : other ≠ uri) :
    lastChange uri (ns ++ [n]) = lastChange uri ns := by
  simp [lastChange, tells.uri, ne]

theorem lastChange_didOpen (tells : n.Tells .didOpen uri) : lastChange uri (ns ++ [n]) = none := by
  simp [lastChange, tells.uri, tells.kind]

theorem lastChange_didChange (tells : n.Tells .didChange uri) :
    lastChange uri (ns ++ [n]) = some n := by
  simp [lastChange, tells.uri, tells.kind]

/-- The notices of a save are no changes. -/
theorem lastChange_save (tells : n.Tells kind other) (save : kind = .willSave ∨ kind = .didSave) :
    lastChange uri (ns ++ [n]) = lastChange uri ns := by
  rcases save with rfl | rfl <;> simp [lastChange, tells.uri, tells.kind]

end

/-- The notification that tells a staged change. -/
def StagedChange.notice (change : StagedChange) (uri : String) : Notification :=
  Session.notice "textDocument/didChange"
    (DocumentSync.didChange uri change.version [.full change.text])

theorem StagedChange.tells_notice (change : StagedChange) (uri : String) :
    (change.notice uri).Tells .didChange uri :=
  Notification.tells_didChange _

/-- The change of a document accepted last is the one that waits or, when none waits, the one told
    last. -/
def Upheld (uri : String) (sync : DocumentSync) (ns : List Notification)
    (last : Option StagedChange) : Prop :=
  match sync.staged.get? uri with
  | some change => last = some change
  | none => lastChange uri ns = last.map (·.notice uri)

theorem Upheld.congr {uri : String} {sync sync' : DocumentSync} {ns ns' : List Notification}
    {last : Option StagedChange} (upheld : Upheld uri sync ns last)
    (staged : sync'.staged.get? uri = sync.staged.get? uri)
    (told : lastChange uri ns' = lastChange uri ns) : Upheld uri sync' ns' last := by
  simpa [Upheld, staged, told] using upheld

/-- The change that came to wait for a document, if another one waits than before. -/
def DocumentSync.arrived? (sync sync' : DocumentSync) (uri : String) : Option StagedChange :=
  if sync'.staged.get? uri = sync.staged.get? uri then none else sync'.staged.get? uri

@[simp] theorem DocumentSync.arrived?_same {sync sync' : DocumentSync} {uri : String}
    (same : sync'.staged.get? uri = sync.staged.get? uri) : sync.arrived? sync' uri = none :=
  if_pos same

@[simp] theorem DocumentSync.arrived?_none {sync sync' : DocumentSync} {uri : String}
    (gone : sync'.staged.get? uri = none) : sync.arrived? sync' uri = none := by
  simp [arrived?, gone]

/-- **Telling loses nothing.**  What a session does about its documents leaves the change accepted last
    waiting, or tells it. -/
theorem Telling.upheld {may : SyncOp → Prop} {sync sync' : DocumentSync}
    {ns notes : List Notification} {uri : String} {last : Option StagedChange}
    (telling : Telling may sync sync' notes) (covered : sync.Covered) (full : sync.kind = .full)
    (older : ∀ change, sync.staged.get? uri = some change → change.generation ≤ sync.lastGeneration)
    (closed : sync.isAnnounced uri = false → last = none)
    (upheld : sync.isAnnounced uri = true → Upheld uri sync ns last)
    (announced : sync'.isAnnounced uri = true) :
    Upheld uri sync' (ns ++ notes) ((sync.arrived? sync' uri).or last) := by
  -- when a document stays open, what waits for it stays, and nothing is told of it
  have apart : sync'.staged.get? uri = sync.staged.get? uri →
      (sync'.isAnnounced uri = true → sync.isAnnounced uri = true) →
      lastChange uri (ns ++ notes) = lastChange uri ns →
      Upheld uri sync' (ns ++ notes) ((sync.arrived? sync' uri).or last) := by
    intro staged still told
    simpa [staged] using (upheld (still announced)).congr staged told
  cases telling with
  | silent => exact apart rfl id (by simp)
  | saving n kind other tells save => exact apart rfl id (lastChange_save tells save)
  | made op answer _ allowed done kept configured =>
    have effect : DocumentSync.Transition sync ⟨op, answer⟩ sync' := by
      simpa [done] using DocumentSync.step_transition covered op
    cases effect with
    | configured kind => exact absurd rfl (configured kind)
    | openPassed | changePassed | refused | releasePassed | saved | closePassed =>
      exact apart rfl id (by simp [SyncAnswer.notification?])
    | opened d on fresh =>
      have tells := Notification.tells_didOpen ⟨.ofDocument d⟩
      by_cases same : d.uri = uri
      · subst same
        -- nothing waits for a document that was not open
        have empty := covered d.uri fresh
        have unknown : sync.isAnnounced d.uri = false := by
          simp [DocumentSync.isAnnounced, Table.has, fresh]
        have told : lastChange d.uri (ns ++ [notice "textDocument/didOpen"
            (⟨.ofDocument d⟩ : DidOpenParams)]) = none := lastChange_didOpen tells
        simpa [Upheld, empty, closed unknown, SyncAnswer.notification?] using told
      · refine apart rfl (fun still => ?_) (lastChange_concat_other tells same)
        simpa [DocumentSync.isAnnounced, Table.has, same] using still
    | sent c lastSent incremental => simp [full] at incremental
    | staged c lastSent kind open' newer =>
      by_cases same : c.uri = uri
      · subst same
        have new : sync.staged.get? c.uri ≠ some ⟨c.version, c.text, sync.lastGeneration + 1⟩ := by
          intro before
          exact absurd (older _ before) (Nat.not_succ_le_self _)
        simp [Upheld, DocumentSync.arrived?, Ne.symm new]
      · refine apart (by simp [same]) (fun still => ?_) (by simp [SyncAnswer.notification?])
        simpa [DocumentSync.isAnnounced] using still
    | released _ other change lastSent asked present open' =>
      have tells := change.tells_notice other
      by_cases same : other = uri
      · subst same
        have was : last = some change := by
          have upheld := upheld (DocumentSync.isAnnounced_eq_true_iff.mpr ⟨_, open'⟩)
          simpa [Upheld, present] using upheld
        have told : lastChange other (ns ++ [notice "textDocument/didChange"
            (DocumentSync.didChange other change.version [.full change.text])]) =
            some (change.notice other) := lastChange_didChange tells
        simpa [Upheld, was, SyncAnswer.notification?] using told
      · refine apart (by simp [same]) (fun still => ?_) (lastChange_concat_other tells same)
        simpa [DocumentSync.isAnnounced, Table.has, same] using still
    | closed other lastSent open' =>
      have tells := Notification.tells_didClose ⟨⟨other⟩⟩
      by_cases same : other = uri
      · subst same
        simp [DocumentSync.isAnnounced, Table.has] at announced
      · refine apart (by simp [same]) (fun still => ?_) (lastChange_concat_other tells same)
        simpa [DocumentSync.isAnnounced, Table.has, same] using still
    | reset => exact absurd rfl kept

end LanguageClient
