import LanguageClient.Proofs.Session.Writing
/-!
# Versions that are told

What a session tells of the text of a document has the URI and the version of a document that it was told
of: by the list that a start takes, or by an event.  A version may wait on the way, with a change that is
staged or with a task (`Session.Stamped`), but it is never changed.
-/

namespace LanguageClient

/-! ## Notices -/

namespace DocumentNotice

/-- A notice as it is sent. -/
def notification : DocumentNotice → Notification
  | opened params => Session.notice "textDocument/didOpen" params
  | changed params => Session.notice "textDocument/didChange" params

/-- A notice has the URI and the version of a document, and all of it if it tells of its opening. -/
def Stamped (was : Document → Prop) (n : DocumentNotice) : Prop :=
  ∃ d, was d ∧ (n = .opened ⟨.ofDocument d⟩ ∨
    ∃ changes, n = .changed (DocumentSync.didChange d.uri d.version changes))

theorem Stamped.version {was : Document → Prop} {n : DocumentNotice} (stamped : n.Stamped was) :
    ∃ d, was d ∧ n.uri = d.uri ∧ n.version = d.version := by
  obtain ⟨d, known, rfl | ⟨changes, rfl⟩⟩ := stamped <;> exact ⟨d, known, rfl, rfl⟩

end DocumentNotice

/-- An event tells of a document as it was. -/
def DocumentEvent.Stamped (was : Document → Prop) : DocumentEvent → Prop
  | .opened d => was d
  | .changed c => ∃ d, was d ∧ d.uri = c.uri ∧ d.version = c.version
  | _ => True

/-- A notification that tells of the text of a document has the version of a document. -/
def Notification.Stamped (was : Document → Prop) (n : Notification) : Prop :=
  n.method = "textDocument/didOpen" ∨ n.method = "textDocument/didChange" →
    ∃ told : DocumentNotice, told.Stamped was ∧ n = told.notification

section

variable {was was' : Document → Prop}

theorem DocumentNotice.Stamped.mono {n : DocumentNotice} (stamped : n.Stamped was)
    (more : ∀ d, was d → was' d) : n.Stamped was' := by
  obtain ⟨d, known, told⟩ := stamped
  exact ⟨d, more d known, told⟩

theorem DocumentEvent.Stamped.mono {e : DocumentEvent} (stamped : e.Stamped was)
    (more : ∀ d, was d → was' d) : e.Stamped was' := by
  cases e with
  | opened d => exact more d stamped
  | changed c =>
    obtain ⟨d, known, same⟩ := stamped
    exact ⟨d, more d known, same⟩
  | _ => trivial

theorem Notification.Stamped.mono {n : Notification} (stamped : n.Stamped was)
    (more : ∀ d, was d → was' d) : n.Stamped was' := fun about => by
  obtain ⟨told, stamped, same⟩ := stamped about
  exact ⟨told, stamped.mono more, same⟩

/-- Other notifications say nothing of versions. -/
theorem Notification.stamped_of_method {n : Notification} (method : String) (named : n.method = method)
    (other : method ≠ "textDocument/didOpen" ∧ method ≠ "textDocument/didChange" := by decide) :
    n.Stamped was :=
  fun about => (about.elim (named ▸ other.1) (named ▸ other.2)).elim

theorem DocumentNotice.Stamped.notification {n : DocumentNotice} (stamped : n.Stamped was) :
    n.notification.Stamped was := fun _ => ⟨n, stamped, rfl⟩

end

/-! ## The bookkeeping -/

namespace DocumentSync

variable {was was' : Document → Prop} {s s' : DocumentSync} {op : SyncOp} {answer : SyncAnswer}

/-- A change that is staged has the version of a document. -/
def Stamped (was : Document → Prop) (s : DocumentSync) : Prop :=
  ∀ uri change, s.staged.get? uri = some change →
    ∃ d, was d ∧ d.uri = uri ∧ d.version = change.version

theorem Stamped.mono (stamped : s.Stamped was) (more : ∀ d, was d → was' d) : s.Stamped was' := by
  intro uri change there
  obtain ⟨d, known, same⟩ := stamped uri change there
  exact ⟨d, more d known, same⟩

/-- An operation is about a document as it was. -/
def AskedFor (was : Document → Prop) : SyncOp → Prop
  | .open d => (DocumentEvent.opened d).Stamped was
  | .change c => (DocumentEvent.changed c).Stamped was
  | _ => True

/-- Nothing is staged but by a change, and nothing that was staged is changed. -/
theorem Transition.stamped (t : Transition s ⟨op, answer⟩ s') (stamped : s.Stamped was)
    (about : ∀ c, op = .change c → (DocumentEvent.changed c).Stamped was) : s'.Stamped was := by
  intro uri change there
  cases t with
  | configured | openPassed | opened | changePassed | refused | sent | releasePassed | saved |
      closePassed => exact stamped uri change there
  | staged c =>
    rw [Table.get?_put] at there
    split at there
    · rename_i same
      obtain rfl := Option.some.inj there
      obtain ⟨d, known, named, version⟩ := about c rfl
      exact ⟨d, known, named.trans same, version⟩
    · rw [get?_staged_unstage] at there
      split at there
      · cases there
      · exact stamped uri change there
  | released | closed =>
    simp only [get?_staged_unstage] at there
    split at there
    · cases there
    · exact stamped uri change there
  | reset => cases there

/-- What is given out has the version of a document. -/
theorem Transition.notice_stamped (t : Transition s ⟨op, answer⟩ s') (stamped : s.Stamped was)
    (about : AskedFor was op) {n : DocumentNotice} (told : SyncEvent.notice? ⟨op, answer⟩ = some n) :
    n.Stamped was := by
  cases t with
  | opened d =>
    obtain rfl := Option.some.inj told
    exact ⟨d, about, Or.inl rfl⟩
  | sent c =>
    obtain rfl := Option.some.inj told
    obtain ⟨d, known, named, version⟩ := about
    exact ⟨d, known, Or.inr ⟨c.changes, by rw [named, version]⟩⟩
  | released _ uri change _ _ present =>
    obtain rfl := Option.some.inj told
    obtain ⟨d, known, rfl, version⟩ := stamped uri change present
    exact ⟨d, known, Or.inr ⟨[.full change.text], by rw [version]⟩⟩
  | _ => cases told

end DocumentSync

/-! ## Tasks -/

/-- What a task is about to tell, and what it goes by, has the version of a document. -/
structure Task.Stamped (was : Document → Prop) (task : Task) : Prop where
  speech : ∀ c n, task.speech? = some (c, n) → n.Stamped was
  event : ∀ e p, task = .event e p → e.Stamped was
  listed : ∀ c params rest, task = .start (.announcing c params rest) → ∀ d ∈ rest, was d
  due : ∀ uri generation deadline params, task = .delivery uri generation deadline (.looking params) →
    (DocumentNotice.changed params).Stamped was

namespace Task

variable {was was' : Document → Prop} {task : Task}

theorem Stamped.mono (stamped : task.Stamped was) (more : ∀ d, was d → was' d) : task.Stamped was' where
  speech c n speech := (stamped.speech c n speech).mono more
  event e p same := (stamped.event e p same).mono more
  listed c params rest same d among := more d (stamped.listed c params rest same d among)
  due uri generation deadline params same := (stamped.due uri generation deadline params same).mono more

/-- A task that tells nothing and goes by nothing. -/
theorem stamped_of_silent (silent : task.speech? = none) (event : ∀ e p, task ≠ .event e p := by simp)
    (due : ∀ uri generation deadline params, task ≠ .delivery uri generation deadline (.looking params) := by
      simp) : task.Stamped was where
  speech c n speech := by simp [silent] at speech
  event e p same := absurd same (event e p)
  listed c params rest same := by subst same; cases silent
  due uri generation deadline params same := absurd same (due uri generation deadline params)

/-- A task that goes by nothing. -/
theorem stamped_of_speech {c : Nat} {n : Notification} (speaks : task.speech? = some (c, n))
    (stamped : n.Stamped was) (event : ∀ e p, task ≠ .event e p := by simp)
    (listed : ∀ c params rest, task ≠ .start (.announcing c params rest) := by simp) :
    task.Stamped was where
  speech c' n' speech := by
    obtain ⟨rfl, rfl⟩ := Prod.mk.inj (Option.some.inj (speaks.symm.trans speech))
    exact stamped
  event e p same := absurd same (event e p)
  listed c params rest same := absurd same (listed c params rest)
  due uri generation deadline params same := by subst same; cases speaks

/-- A task for an event goes by the event. -/
theorem stamped_event {e : DocumentEvent} {p : EventPhase} (event : e.Stamped was)
    (speech : ∀ c n, (Task.event e p).speech? = some (c, n) → n.Stamped was) :
    (Task.event e p).Stamped was where
  speech := speech
  event e' p' same := by cases same; exact event
  listed _ _ _ same := by cases same
  due _ _ _ _ same := by cases same

end Task

namespace Session

variable {now : Nat} {h h' : Host} {s s' : Session} {t : Nat} {task task' : Task} {was : Document → Prop}

/-- The notice that an answer gives has the version of a document. -/
theorem notice_stamped {op : SyncOp} {answer : SyncAnswer} {sync : DocumentSync} {n : DocumentNotice}
    (covered : s.sync.Covered) (stamped : s.sync.Stamped was) (done : s.sync.step op = (answer, sync))
    (about : DocumentSync.AskedFor was op) (told : SyncEvent.notice? ⟨op, answer⟩ = some n) :
    n.Stamped was := by
  have transition := DocumentSync.step_transition covered op
  rw [done] at transition
  exact transition.notice_stamped stamped about told

/-- A replay goes on with a document of the list. -/
theorem Announced.stamped {c : Nat} {docs : List Document} {p : StartPhase} {s₁ : Session}
    (next : Announced s₁ c docs s' p) (known : ∀ d ∈ docs, was d) : (Task.start p).Stamped was := by
  cases next with
  | finished => exact Task.stamped_of_silent rfl
  | next skipped d rest params sync split passed told =>
    have among : d ∈ docs := by simp [split]
    have stamped : (DocumentNotice.opened params).Stamped was := by
      unfold DocumentSync.open at told
      split at told
      · cases told
      · obtain rfl := Option.some.inj (Prod.mk.inj told).1
        exact ⟨d, known d among, Or.inl rfl⟩
    exact {
      speech := fun c n speech => by cases speech; exact stamped.notification
      event := by simp
      listed := fun c params' rest' same d' among' => by
        cases same
        exact known d' (by simp [split, among'])
      due := by simp }

theorem StartStep.stamped {p p' : StartPhase} (step : StartStep now h s t p h' s' p')
    (before : (Task.start p).Stamped was) (known : ∀ d ∈ h.documents, was d) :
    (Task.start p').Stamped was := by
  have greeting : ∀ c kind, (Task.start (.greeting c kind)).Stamped was := fun c kind =>
    Task.stamped_of_speech rfl (Notification.stamped_of_method "initialized" rfl)
  cases step with
  | listed c _ _ next => exact next.stamped known
  | announced c params rest _ _ can next => exact next.stamped (before.listed c params rest rfl)
  | ran c kind => exact greeting c kind
  | connected _ _ _ next =>
    rcases next with rfl | rfl | ⟨reason, rfl⟩ <;> exact Task.stamped_of_silent rfl
  | concluded _ _ _ _ _ _ _ _ next | answered _ _ _ _ _ _ _ _ _ _ _ _ next =>
    cases next <;> exact Task.stamped_of_silent rfl
  | _ => exact Task.stamped_of_silent rfl

theorem StopStep.stamped {p p' : StopPhase} (step : StopStep now s p s' p') :
    (Task.stop p').Stamped was := by
  have exiting : ∀ c, (Task.stop (.exiting c)).Stamped was := fun c =>
    Task.stamped_of_speech rfl (Notification.stamped_of_method "exit" rfl)
  cases step with
  | answered c => exact exiting c
  | called c =>
    split
    · exact exiting c
    · exact Task.stamped_of_silent rfl
  | closed _ _ _ _ _ _ place => rcases place with rfl | rfl <;> exact Task.stamped_of_silent rfl
  | _ => exact Task.stamped_of_silent rfl

theorem EventStep.stamped {e : DocumentEvent} {p p' : EventPhase} (step : EventStep now h s t e p s' p')
    (covered : s.sync.Covered) (sync : s.sync.Stamped was) (before : (Task.event e p).Stamped was) :
    (Task.event e p').Stamped was := by
  -- an event speaks of one version, its own
  have event := before.event e p rfl
  refine Task.stamped_event event fun c' n speech => ?_
  cases step with
  | opened d c params sync' current told =>
    cases speech
    exact (notice_stamped (n := .opened params) covered sync told event rfl).notification
  | sent change c params sync' current told =>
    cases speech
    exact (notice_stamped (n := .changed params) covered sync told event rfl).notification
  | flushed _ c _ params sync' place told =>
    cases speech
    exact (notice_stamped (n := .changed params) covered sync told trivial rfl).notification
  | closed =>
    cases speech
    exact Notification.stamped_of_method "textDocument/didClose" rfl
  | warned =>
    cases speech
    exact Notification.stamped_of_method "textDocument/willSave" rfl
  | saved =>
    cases speech
    exact Notification.stamped_of_method "textDocument/didSave" rfl
  | ahead _ c params _ _ can next =>
    rcases next with ⟨uri, reason, rfl, rfl, -⟩ | ⟨uri, text, rfl, rfl, -⟩ | ⟨rfl, -⟩
    · cases speech
      exact Notification.stamped_of_method "textDocument/willSave" rfl
    · cases speech
    · cases speech
  | asked _ c _ _ place => rcases place with ⟨-, rfl⟩ | ⟨-, language, rfl⟩ <;> cases speech
  | _ => cases speech

theorem DeliveryStep.stamped {uri : String} {generation deadline : Nat} {p p' : DeliveryPhase}
    (step : DeliveryStep now s t uri generation deadline p s' p') (covered : s.sync.Covered)
    (sync : s.sync.Stamped was) (before : (Task.delivery uri generation deadline p).Stamped was) :
    (Task.delivery uri generation deadline p').Stamped was := by
  cases step with
  | taken params sync' free running told =>
    exact {
      speech := by simp [Task.speech?]
      event := by simp
      listed := by simp
      due := fun _ _ _ params' same => by
        cases same
        exact notice_stamped (n := .changed params) covered sync told trivial rfl }
  | found c params =>
    exact Task.stamped_of_speech rfl (before.due uri generation deadline params rfl).notification
  | _ => exact Task.stamped_of_silent rfl

theorem QueryStep.stamped {q : EditQuery} {p p' : QueryPhase} (step : QueryStep now h s t q p s' p')
    (covered : s.sync.Covered) (sync : s.sync.Stamped was) : (Task.query q p').Stamped was := by
  cases step with
  | began _ next =>
    rcases next with rfl | ⟨-, rfl⟩ | ⟨result, rfl⟩ <;> exact Task.stamped_of_silent rfl
  | asked _ _ _ place =>
    rcases place with ⟨-, rfl⟩ | ⟨-, language, rfl⟩ <;> exact Task.stamped_of_silent rfl
  | ahead c _ _ _ place next =>
    cases next with
    | flushed params sync' told =>
      exact Task.stamped_of_speech rfl
        (notice_stamped (n := .changed params) covered sync told trivial rfl).notification
    | asked => exact Task.stamped_of_silent rfl
  | _ => exact Task.stamped_of_silent rfl

/-- A step tells of versions that the task went by, or that were staged. -/
theorem TaskStep.stamped (step : TaskStep now h s t task h' s' task') (covered : s.sync.Covered)
    (sync : s.sync.Stamped was) (known : ∀ d ∈ h.documents, was d) (before : task.Stamped was) :
    task'.Stamped was := by
  cases step with
  | start p _ _ p' step => exact step.stamped before known
  | stop p _ p' step => exact step.stamped
  | watch c p _ _ p' step => exact Task.stamped_of_silent rfl
  | event e p _ p' step => exact step.stamped covered sync before
  | delivery uri generation deadline p _ p' step => exact step.stamped covered sync before
  | query q p _ p' step => exact step.stamped covered sync
  | request method params cancelled p _ p' step => exact Task.stamped_of_silent rfl

/-- A step stages a version that the task went by. -/
theorem TaskStep.sync_stamped (step : TaskStep now h s t task h' s' task') (covered : s.sync.Covered)
    (sync : s.sync.Stamped was) (before : task.Stamped was) : s'.sync.Stamped was := by
  have made : ∀ op, s'.sync = (s.sync.step op).2 →
      (∀ c, op = .change c → (DocumentEvent.changed c).Stamped was) → s'.sync.Stamped was :=
    fun op same about => same ▸ (DocumentSync.step_transition covered op).stamped sync about
  cases step.sync_use with
  | same same => exact same ▸ sync
  | held op holds asks same =>
    refine made op same fun c changed => ?_
    subst changed
    exact before.event _ _ asks
  | taken uri generation free same => exact made _ same (by simp)
  | configured c kind free place same => exact made _ same (by simp)
  | reset free same => exact made _ same (by simp)

/-- All that a session has told, and all that it is about to tell, has the version of a document. -/
structure Stamped (was : Document → Prop) (s : Session) : Prop where
  sync : s.sync.Stamped was
  tasks : ∀ (t : Nat) (task : Task), s.tasks[t]? = some task → task.Stamped was
  sent : ∀ (c : Nat) (n : Notification), .notification n ∈ (s.connection c).sent → n.Stamped was

theorem Stamped.mono {was' : Document → Prop} (stamped : s.Stamped was) (more : ∀ d, was d → was' d) :
    s.Stamped was' where
  sync := stamped.sync.mono more
  tasks t task here := (stamped.tasks t task here).mono more
  sent c n among := (stamped.sent c n among).mono more

theorem Moved.sync_stamped (moved : Moved now h s h' s') (covered : s.sync.Covered)
    (stamped : s.Stamped was) : s'.sync.Stamped was := by
  cases moved with
  | task t task _ s₁ task' here step =>
    exact step.sync_stamped covered stamped.sync (stamped.tasks t task here)
  | served _ _ serves =>
    obtain ⟨c, connection, registry, handlers, passing, diagnostics, -, -, rfl⟩ := serves
    exact stamped.sync

end Session

namespace Scene

variable {d d' : Scene} {was : Document → Prop}

/-- Whatever happens, versions come from the documents of the host and from new events. -/
theorem Change.stamped (change : Change d d') (covered : d.session.sync.Covered)
    (stamped : d.session.Stamped was) (known : ∀ document ∈ d.host.documents, was document)
    (fresh : ∀ (t : Nat) (e : DocumentEvent), d.session.tasks[t]? = none →
      d'.session.tasks[t]? = some (.event e .locking) → e.Stamped was) : d'.session.Stamped was where
  sync := by
    rcases change.cases with ⟨-, moved⟩ | ⟨aside, -⟩
    · exact moved.sync_stamped covered stamped
    · rw [aside.rest]
      exact stamped.sync
  tasks t task here' := by
    cases change.came here' with
    | stayed _ here => exact stamped.tasks t task here
    | called _ absent began =>
      cases began with
      | event e => exact Task.stamped_event (fresh t e absent here') (by simp [Task.speech?])
      | _ => exact Task.stamped_of_silent rfl
    | born _ _ born => cases born <;> exact Task.stamped_of_silent rfl
    | fired => exact Task.stamped_of_silent rfl
    | stepped old _ s here step => exact step.stamped covered stamped.sync known (stamped.tasks t old here)
  sent c n among := by
    -- what was there stays there, and one message may be new
    obtain ⟨first, answers, split, may⟩ := change.wrote c
    rw [split, List.mem_append, List.mem_append] at among
    rcases among with among | among | among
    · exact stamped.sent c n among
    · obtain ⟨-, t, task, here, writes⟩ := may _ (Option.mem_toList.mp among)
      cases writes with
      | noticed _ speech => exact (stamped.tasks t task here).speech c n speech
      | withdrew call id => exact Notification.stamped_of_method "$/cancelRequest" rfl
    · simp at among

end Scene

end LanguageClient
