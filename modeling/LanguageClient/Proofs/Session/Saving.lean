import LanguageClient.Proofs.Document.Ledger
import LanguageClient.Proofs.Session.Coalescing
import LanguageClient.Proofs.Session.Following
/-!
# Saves follow edits

With full synchronisation a change waits for a while before the server is told of it.  Whatever is told
of a save must not overtake it, so the notices of a save and the questions for edits let a waiting change
go ahead.

Two things come together here.  As long as a session tells all that the bookkeeping gives out, what it
has told of a document, and then what waits, keeps up with the changes that were accepted since the
server has the document open (`RanOn.keeps`).  And from where a task lets the change go ahead nothing
waits until the task has written (`settled_after`).  For a question the lock on the documents is given
back before the request is written, so the moment at which the server had been told everything lies in
the past (`CaughtUp`).
-/

namespace LanguageClient

open Session (notice)

namespace Scene

variable {setup : Setup} {moves : List Move} {move : Move} {d d' : Scene} {t i c : Nat}
  {kind : SyncKind} {uri : String}

/-! ## Accepted changes -/

/-- The change of a document that a move accepts. -/
def takesUp? (uri : String) (d : Scene) : Move → Option DocumentChange
  | .act (.task t) =>
    match d.session.tasks[t]?, d.session.current with
    | some (.event (.changed change) .looking), some _ =>
      SyncEvent.accepted? uri ⟨.change change, (d.session.sync.step (.change change)).1⟩
    | _, _ => none
  | _ => none

/-- The changes of a document that were accepted since the server has it open. -/
def accepted (setup : Setup) (uri : String) (moves : List Move) : List DocumentChange :=
  (machine setup).remembered (fun d move past =>
    if (d.step move).session.sync.isAnnounced uri then past ++ (d.takesUp? uri move).toList else [])
    [] moves

theorem accepted_concat (setup : Setup) (uri : String) (moves : List Move) (move : Move) :
    accepted setup uri (moves ++ [move]) =
      if ((machine setup).after (moves ++ [move])).session.sync.isAnnounced uri then
        accepted setup uri moves ++ (((machine setup).after moves).takesUp? uri move).toList
      else [] := by
  simp [accepted]

/-- Nothing counts of what was accepted for a document that the server does not have open. -/
theorem accepted_of_closed
    (closed : ((machine setup).after moves).session.sync.isAnnounced uri = false) :
    accepted setup uri moves = [] := by
  rcases List.eq_nil_or_concat moves with rfl | ⟨moves, move, rfl⟩
  · rfl
  · rw [List.concat_eq_append] at closed ⊢
    rw [accepted_concat, closed]
    rfl

/-- While the server has a document open, what was accepted for it stays accepted. -/
theorem accepted_grows (moves more : List Move)
    (stays : ∀ first rest, more = first ++ rest → first ≠ [] →
      ((machine setup).after (moves ++ first)).session.sync.isAnnounced uri = true) :
    accepted setup uri moves <+: accepted setup uri (moves ++ more) := by
  induction more using List.reverseRecOn with
  | nil => simp
  | append_singleton more move ih =>
    have earlier := ih fun first rest split => stays first (rest ++ [move]) (by simp [split])
    have now := stays (more ++ [move]) [] (by simp) (by simp)
    rw [← List.append_assoc] at now ⊢
    rw [accepted_concat, now, if_pos rfl]
    exact earlier.trans (List.prefix_append _ _)

/-- A move accepts a change only when it is made by a task that asks for it. -/
theorem takesUp?_eq_none (other : ∀ change, ¬ d.Asks move (.change change)) :
    d.takesUp? uri move = none := by
  unfold takesUp?
  split
  · rename_i i
    split
    · rename_i change c' here current
      exact absurd ⟨i, _, rfl, here, rfl⟩ (other change)
    · rfl
  · rfl

/-- Whoever asks for a change of a document has a connection, if the session goes on to tell. -/
theorem RanOn.current_of_changing (ran : RanOn setup moves t c kind) {change : DocumentChange}
    (here : ((machine setup).after moves).session.tasks[i]? = some (.event (.changed change) .looking))
    (speaks : ((machine setup).after (moves ++ [.act (.task i)])).session.Speaks c) :
    ((machine setup).after moves).session.current = some c := by
  cases current : ((machine setup).after moves).session.current with
  | some c' => exact congrArg some (ran.on.current c' current)
  | none =>
    -- the event gives the lock back, and the session does not run any more
    exfalso
    have could := (change_after moves (.act (.task i))).canWrite c speaks.1
    have stepped : ((machine setup).after (moves ++ [.act (.task i)])).session =
        ((machine setup).after moves).session.unlockSync.setTask i
          (.event (.changed change) (.ended (.ok ()))) := by
      simp [step, Session.step, Session.stepTask, here, Session.stepEvent, current,
        Session.finishEvent, touch]
    have unheld : ((machine setup).after (moves ++ [.act (.task i)])).session.Unheld :=
      fun j x there => (locked_after (moves ++ [.act (.task i)])).free (by rw [stepped]; rfl) there
    have running := ran.was_running (speaks.2.resolve_right (not_not.mpr unheld))
    simp [(ran.attached running could).used] at current

/-! ## Keeping up along a run -/

/-- What somebody does who asks for no change keeps up with the changes that were accepted. -/
theorem keeps_telling {may : SyncOp → Prop} {sync sync' : DocumentSync} {ns notes : List Notification}
    {past : List DocumentChange} (telling : Telling may sync sync' notes) (covered : sync.Covered)
    (waits : sync.Waits) (other : ∀ change, ¬ may (.change change))
    (closed : sync.isAnnounced uri = false → past = [])
    (keeps : Keeps sync.kind (changesTold uri ns ++ sync.waiting uri) past) :
    sync'.Waits ∧ Keeps sync.kind (changesTold uri (ns ++ notes) ++ sync'.waiting uri)
      (if sync'.isAnnounced uri then past else []) := by
  have stays : (if sync.isAnnounced uri then past else []) = past := by
    cases announced : sync.isAnnounced uri with
    | true => rfl
    | false => simp [closed announced]
  cases telling with
  | silent => exact ⟨waits, by simpa [stays] using keeps⟩
  | saving n kind other tells save =>
    exact ⟨waits, by rwa [changesTold_save tells save, stays]⟩
  | made op answer _ allowed done kept configured =>
    have effect : DocumentSync.Transition sync ⟨op, answer⟩ sync' := by
      simpa [done] using DocumentSync.step_transition covered op
    have none : SyncEvent.accepted? uri ⟨op, answer⟩ = none := by
      cases op with
      | change change => exact absurd allowed (other change)
      | _ => rfl
    have kept := effect.keeps covered waits configured kept closed keeps
    rw [none, Option.toList_none, List.append_nil] at kept
    exact ⟨effect.waits waits configured, kept⟩

/-- As long as a session tells all that the bookkeeping gives out, what it has told of a document, and
    then what waits, keeps up with the changes that were accepted. -/
theorem RanOn.keeps (ran : RanOn setup moves t c kind)
    (speaks : ((machine setup).after moves).session.Speaks c) (uri : String) :
    ((machine setup).after moves).session.sync.Waits ∧
    Keeps kind (changesTold uri (((machine setup).after moves).session.conversation c) ++
      ((machine setup).after moves).session.sync.waiting uri) (accepted setup uri moves) := by
  refine ran_induction (fun moves d => d.session.Speaks c → d.session.sync.Waits ∧
    Keeps kind (changesTold uri (d.session.conversation c) ++ d.session.sync.waiting uri)
      (accepted setup uri moves)) ?_ ?_ ran speaks
  · intro moves move quiet step _
    -- the session has just begun to run: nothing was told, and nothing waits
    have nothing : ∀ uri,
        ((machine setup).after (moves ++ [move])).session.sync.staged.get? uri = none := by
      intro uri
      rw [step.sync]
      exact covered_after moves uri
        (by simpa [DocumentSync.isAnnounced, Table.has] using quiet.closed uri)
    have closed :
        ((machine setup).after (moves ++ [move])).session.sync.isAnnounced uri = false := by
      rw [step.sync]
      exact quiet.closed uri
    have owed := (locked_after (moves ++ [move])).owed step.here (Or.inr step.syncOwner)
    have silent : ((machine setup).after (moves ++ [move])).session.conversation c = [] := by
      rw [Session.conversation, step.told c, quiet.silent c, owed]
      rfl
    refine ⟨Or.inr nothing, ?_⟩
    rw [silent, DocumentSync.waiting_eq_nil (nothing uri), accepted_of_closed closed]
    exact Keeps.nil kind
  · rintro moves move d d' rfl rfl ran - keeps speaks
    obtain ⟨spoke, notes, telling, heard⟩ := ran.telling_of_speaks move speaks
    obtain ⟨waits, keeps⟩ := keeps spoke
    have covered := @covered_after setup moves
    rw [← ran.sync_kind] at keeps ⊢
    by_cases changing : ∃ change, ((machine setup).after moves).Asks move (.change change)
    -- the step takes up a change
    · obtain ⟨change, i, task, rfl, here, asks⟩ := changing
      obtain rfl : task = .event (.changed change) .looking := asks
      have current := ran.current_of_changing here speaks
      obtain ⟨s₁, p, -, -, sync, conversation⟩ := Scene.event_made current here rfl
      have taken : ((machine setup).after moves).takesUp? uri (.act (.task i)) =
          SyncEvent.accepted? uri ⟨.change change,
            (((machine setup).after moves).session.sync.step (.change change)).1⟩ := by
        simp [takesUp?, here, current]
      have effect := DocumentSync.step_transition covered (.change change)
      rw [← sync] at effect
      rw [accepted_concat, conversation, taken]
      exact ⟨effect.waits waits (by simp), effect.keeps covered waits (by simp) (by simp)
        accepted_of_closed keeps⟩
    -- no change is taken up
    · have other := not_exists.mp changing
      rw [accepted_concat, heard, takesUp?_eq_none other, Option.toList_none, List.append_nil]
      exact keeps_telling telling covered waits other accepted_of_closed keeps

end Scene

/-! ## Nothing waits when a task is about to tell of a save -/

/-- An event has let the waiting change of a document go ahead, and has the lock on the documents
    since. -/
def EventPhase.Settles (uri : String) (e : DocumentEvent) : EventPhase → Prop
  | .checking _ | .naming _ => ∃ text, e = .saved uri text
  | .flushing .. => e.uri = uri
  | .writing _ n => n.Tells .didSave uri ∨ n.Tells .willSave uri
  | _ => False

/-- A task has let the waiting change of a document go ahead, and has the lock on the documents since. -/
def Task.Settles (uri : String) : Task → Prop
  | .event e p => p.Settles uri e
  | .query q (.flushing ..) => q.uri = uri
  | .delivery about _ _ (.looking _) | .delivery about _ _ (.writing ..) => about = uri
  | _ => False

/-- What a notification tells is one thing of one document. -/
theorem Notification.Tells.unique {n : Notification} {kind kind' : NoticeKind} {uri uri' : String}
    (tells : n.Tells kind uri) (tells' : n.Tells kind' uri') : kind = kind' ∧ uri = uri' :=
  ⟨Option.some.inj (tells.kind.symm.trans tells'.kind), Option.some.inj (tells.uri.symm.trans tells'.uri)⟩

namespace Session

variable {now : Nat} {h h' : Host} {s s' : Session} {t i c : Nat} {task task' : Task} {uri : String}

theorem holds_of_settles (settles : task.Settles uri) : task.HoldsSync := by
  cases task with
  | event e p => cases p <;> trivial
  | query q p => cases p <;> trivial
  | delivery about generation deadline p => cases p <;> trivial
  | _ => exact settles.elim

/-- A change that was flushed does not wait any more. -/
theorem staged_of_flushed {sync sync' : DocumentSync} {params : DidChangeParams}
    (covered : sync.Covered) (told : sync.step (.flush uri) = (.released (some params), sync')) :
    sync'.staged.get? uri = none := by
  have effect := DocumentSync.step_transition covered (.flush uri)
  rw [told] at effect
  generalize same : SyncOp.flush uri = op at effect
  cases effect with
  | released _ other change lastSent asked =>
    rcases asked with rfl | rfl
    · obtain rfl := SyncOp.flush.inj same
      simp
    · simp at same

/-- Nothing waits for a document from where an event lets its change go ahead. -/
theorem EventStep.settles {e : DocumentEvent} {p p' : EventPhase}
    (step : EventStep now h s t e p s' p') (covered : s.sync.Covered) (settles' : p'.Settles uri e)
    (nothing : p.Settles uri e → s.sync.staged.get? uri = none) : s'.sync.staged.get? uri = none := by
  -- a notice of an opening, a change or a closing is none of a save
  have other : ∀ {n : Notification} {kind : NoticeKind} {about : String}, n.Tells kind about →
      kind ≠ .didSave → kind ≠ .willSave → n.Tells .didSave uri ∨ n.Tells .willSave uri → False :=
    fun tells noSave noWarning settles => settles.elim (fun same => noSave (tells.unique same).1)
      fun same => noWarning (tells.unique same).1
  cases step with
  | regarded _ c current announced nothing' =>
    obtain ⟨text, rfl⟩ := settles'
    exact nothing' uri text rfl
  | flushed _ c _ params sync place told =>
    obtain rfl : e.uri = uri := settles'
    exact staged_of_flushed covered told
  | asked _ c _ _ place =>
    rcases place with ⟨rfl, rfl⟩ | ⟨rfl, language, rfl⟩
    · exact nothing settles'
    · exact settles'.elim
  | opened d c params sync current told =>
    exact (other (Notification.tells_didOpen params) (by simp) (by simp) settles').elim
  | sent change c params sync current told =>
    exact (other (Notification.tells_didChange params) (by simp) (by simp) settles').elim
  | closed about c params sync current told =>
    exact (other (Notification.tells_didClose params) (by simp) (by simp) settles').elim
  | warned about reason c _ place nothing' =>
    have tells := Notification.tells_willSave about reason
    obtain rfl : about = uri := settles'.elim (fun same => (tells.unique same).2)
      fun same => (tells.unique same).2
    exact nothing'
  | saved about text text' c _ place announced content =>
    have tells := Notification.tells_didSave ⟨⟨about⟩, text'⟩
    obtain rfl : about = uri := settles'.elim (fun same => (tells.unique same).2)
      fun same => (tells.unique same).2
    refine nothing ?_
    rcases place with rfl | rfl <;> exact ⟨text, rfl⟩
  | ahead _ c params _ _ can next =>
    rcases next with ⟨about, reason, rfl, rfl, rfl⟩ | ⟨about, text, rfl, rfl, rfl⟩ | ⟨rfl, rfl⟩
    · have tells := Notification.tells_willSave about reason
      obtain rfl : about = uri := settles'.elim (fun same => (tells.unique same).2)
        fun same => (tells.unique same).2
      exact nothing rfl
    · obtain ⟨text', same⟩ := settles'
      obtain ⟨rfl, -⟩ := DocumentEvent.saved.inj same
      exact nothing rfl
    · exact settles'.elim
  | _ => exact settles'.elim

/-- Nothing waits for a document from where a question lets its change go ahead. -/
theorem QueryStep.settles {q : EditQuery} {p p' : QueryPhase} (step : QueryStep now h s t q p s' p')
    (covered : s.sync.Covered) (settles' : (Task.query q p').Settles uri) :
    s'.sync.staged.get? uri = none := by
  cases step with
  | began _ next =>
    rcases next with rfl | ⟨-, rfl⟩ | ⟨result, rfl⟩ <;> exact settles'.elim
  | asked c _ _ place =>
    rcases place with ⟨rfl, rfl⟩ | ⟨rfl, language, rfl⟩ <;> exact settles'.elim
  | ahead c _ _ _ place next =>
    cases next with
    | flushed params sync told =>
      obtain rfl : q.uri = uri := settles'
      exact staged_of_flushed covered told
    | asked => exact settles'.elim
  | _ => exact settles'.elim

/-- Nothing waits for a document from where a delivery has taken its change out. -/
theorem DeliveryStep.settles {about : String} {generation deadline : Nat} {p p' : DeliveryPhase}
    (step : DeliveryStep now s t about generation deadline p s' p') (covered : s.sync.Covered)
    (settles' : (Task.delivery about generation deadline p').Settles uri)
    (nothing : (Task.delivery about generation deadline p).Settles uri →
      s.sync.staged.get? uri = none) : s'.sync.staged.get? uri = none := by
  cases step with
  | taken params sync free running taken =>
    obtain rfl : about = uri := settles'
    exact DocumentSync.staged_of_taken covered taken
  | found c params current => exact nothing settles'
  | _ => exact settles'.elim

/-- Nothing waits for a document whose change a task has let go ahead. -/
def Cleared (s : Session) : Prop :=
  ∀ (t : Nat) (task : Task) (uri : String), s.tasks[t]? = some task → task.Settles uri →
    s.sync.staged.get? uri = none

theorem Moved.cleared (moved : Moved now h s h' s') (covered : s.sync.Covered) (locked : s.Locked)
    (cleared : s.Cleared) : s'.Cleared := by
  cases moved with
  | served _ _ serves =>
    obtain ⟨c, connection, registry, handlers, passing, diagnostics, -, -, rfl⟩ := serves
    exact cleared
  | task t task _ s₁ task' here step =>
    intro i x uri here' settles
    change s₁.sync.staged.get? uri = none
    rcases step.at here here' with ⟨rfl, rfl⟩ | ⟨other, same | ⟨-, born⟩⟩
    · cases step with
      | event e p _ _ step => exact step.settles covered settles (cleared i _ uri here)
      | query q p _ _ step => exact step.settles covered settles
      | delivery _ _ _ p _ _ step => exact step.settles covered settles (cleared i _ uri here)
      | _ => exact settles.elim
    · -- the task has the lock, so nobody else changes what waits
      have holds := holds_of_settles settles
      have held := locked.holder i x same holds
      rcases step.sync_use.locked with kept | also | free
      · rw [kept]
        exact cleared i x uri same settles
      · exact absurd (locked.unique same holds here also) other
      · simp [free] at held
    · cases born <;> exact settles.elim

end Session

namespace Scene

variable {setup : Setup} {moves : List Move} {move : Move} {t i c : Nat} {kind : SyncKind}
  {uri : String} {task : Task}

/-- Nothing waits for a document whose change a task has let go ahead. -/
theorem cleared_after (moves : List Move) : ((machine setup).after moves).session.Cleared := by
  refine run_changes (fun _ d => d.session.Cleared) ?_ ?_ moves
  · simp [machine, Session.ofConfig, Session.Cleared]
  · rintro moves move d d' rfl rfl change cleared
    rcases change.cases with ⟨-, moved⟩ | ⟨aside, -⟩
    · exact moved.cleared (covered_after moves) (locked_after moves) cleared
    · intro t task uri here settles
      rw [aside.rest]
      rcases aside.place t task here with same | ⟨-, fresh⟩ | ⟨method, params, cancelled, p, -, rfl⟩
      · exact cleared t task uri same settles
      · cases fresh <;> exact settles.elim
      · exact settles.elim

/-! ## The server has been told everything -/

/-- A task that has the lock on the documents works in a session that has begun to run. -/
theorem exists_ranOn_of_holds (here : ((machine setup).after moves).session.tasks[t]? = some task)
    (holds : task.HoldsSync) : ∃ t' c kind, RanOn setup moves t' c kind := by
  refine (quiet_or_ranOn moves).resolve_left fun quiet => ?_
  exact (locked_after moves).free quiet.free here holds

/-- A session in which a task has the lock tells what the bookkeeping gives out. -/
theorem speaks_of_holds (here : ((machine setup).after moves).session.tasks[t]? = some task)
    (holds : task.HoldsSync)
    (can : (((machine setup).after moves).session.connection c).canWrite = true) :
    ((machine setup).after moves).session.Speaks c :=
  ⟨can, Or.inr fun unheld => unheld t task here holds⟩

/-- What the server has been told first on a connection keeps up with the changes of a document that had
    been accepted at some moment since a task was called. -/
def CaughtUp (setup : Setup) (moves : List Move) (t : Nat) (uri : String) (c : Nat) : Prop :=
  ∃ before later first, moves = before ++ later ∧
    t < ((machine setup).after before).session.tasks.length ∧
    Keeps ((machine setup).after before).session.sync.kind (changesTold uri first)
      (accepted setup uri before) ∧
    first <+: ((machine setup).after moves).session.told c

theorem CaughtUp.concat (caughtUp : CaughtUp setup moves t uri c) (move : Move) :
    CaughtUp setup (moves ++ [move]) t uri c := by
  obtain ⟨before, later, first, rfl, called, keeps, told⟩ := caughtUp
  exact ⟨before, later ++ [move], first, by simp, called, keeps,
    told.trans ((change_after (before ++ later) move).told_grows c)⟩

/-- While a task has the lock and nothing waits, what was told and what it owes keep up with the changes
    that were accepted. -/
theorem keeps_of_holds (here : ((machine setup).after moves).session.tasks[t]? = some task)
    (holds : task.HoldsSync) (on : task.connection? = some c ∨
      ((machine setup).after moves).session.current = some c)
    (can : (((machine setup).after moves).session.connection c).canWrite = true)
    (nothing : ((machine setup).after moves).session.sync.staged.get? uri = none) :
    Keeps ((machine setup).after moves).session.sync.kind
      (changesTold uri (((machine setup).after moves).session.told c ++ task.owed))
      (accepted setup uri moves) := by
  obtain ⟨t', c', kind, ran⟩ := exists_ranOn_of_holds here holds
  obtain rfl : c = c' := on.elim (ran.on.held t task c here holds) (ran.on.current c)
  have keeps := (ran.keeps (speaks_of_holds here holds can) uri).2
  have locked := @locked_after setup moves
  have mine := locked.owed here (Or.inr (locked.holder t task here holds))
  rwa [Session.conversation, mine, DocumentSync.waiting_eq_nil nothing, List.append_nil,
    ← ran.sync_kind] at keeps

/-- While a task has the lock, owes nothing and nothing waits, the server has been told everything. -/
theorem CaughtUp.of_holds (here : ((machine setup).after moves).session.tasks[t]? = some task)
    (holds : task.HoldsSync) (on : task.connection? = some c ∨
      ((machine setup).after moves).session.current = some c)
    (can : (((machine setup).after moves).session.connection c).canWrite = true)
    (nothing : ((machine setup).after moves).session.sync.staged.get? uri = none)
    (silent : task.owed = []) : CaughtUp setup moves t uri c := by
  have keeps := keeps_of_holds here holds on can nothing
  rw [silent, List.append_nil] at keeps
  exact ⟨moves, [], _, by simp, (List.getElem?_eq_some_iff.mp here).1, keeps, List.prefix_refl _⟩

/-- A question that has begun its request has let everything go ahead that had been accepted. -/
theorem caughtUp_of_asked (moves : List Move) : ∀ (t : Nat) (q : EditQuery) (c : Nat) (call : Call),
    ((machine setup).after moves).session.tasks[t]? = some (.query q (.calling c call)) →
    (((machine setup).after moves).session.connection c).canWrite = true →
    CaughtUp setup moves t q.uri c := by
  refine run_changes (fun moves d => ∀ (t : Nat) (q : EditQuery) (c : Nat) (call : Call),
    d.session.tasks[t]? = some (.query q (.calling c call)) →
    (d.session.connection c).canWrite = true → CaughtUp setup moves t q.uri c) ?_ ?_ moves
  · simp [machine, Session.ofConfig]
  · rintro moves move d d' rfl rfl change asked t q c call here' can
    have could := change.canWrite c can
    cases change.came here' with
    | stayed _ here => exact (asked t q c call here could).concat move
    | called _ _ fresh => cases fresh
    | born _ _ born => cases born
    | stepped old _ s here step result =>
      generalize ((machine setup).after (moves ++ [move])).host = h' at step
      cases step with
      | query _ p _ _ step =>
        generalize place : QueryPhase.calling c call = p' at step
        cases step with
        | began _ next =>
          rcases next with rfl | ⟨-, rfl⟩ | ⟨result, rfl⟩ <;> simp at place
        | asked c' _ _ place' =>
          rcases place' with ⟨-, rfl⟩ | ⟨-, language, rfl⟩ <;> simp at place
        | ahead c' _ _ _ place' next =>
          cases next with
          | flushed => simp at place
          | asked _ call' nothing begun =>
            obtain ⟨rfl, rfl⟩ := QueryPhase.calling.inj place
            have idle : (Task.query q p).HoldsSync ∧ (Task.query q p).owed = [] ∧
                ((Task.query q p).connection? = some c ∨
                  ((machine setup).after moves).session.current = some c) := by
              rcases place' with ⟨rfl, current⟩ | rfl | ⟨language, rfl⟩
              · exact ⟨trivial, rfl, Or.inr current⟩
              · exact ⟨trivial, rfl, Or.inl rfl⟩
              · exact ⟨trivial, rfl, Or.inl rfl⟩
            exact (CaughtUp.of_holds here idle.1 idle.2.2 could nothing idle.2.1).concat move
        | wrote c' params _ call' can' begun =>
          -- the change that went ahead is told with this step
          obtain ⟨rfl, rfl⟩ := QueryPhase.calling.inj place
          have nothing := cleared_after moves t _ q.uri here rfl
          have keeps := keeps_of_holds here trivial (Or.inl rfl) could nothing
          have told : ((machine setup).after (moves ++ [move])).session.told c =
              ((machine setup).after moves).session.told c ++ (Task.query q (.flushing c params)).owed := by
            rw [result]
            refine (begun.told rfl).trans ?_
            exact Session.told_writes_notification ((grounded_after moves).worked t _ c here rfl)
              ⟨_, rfl⟩
          exact ⟨moves, [move], _, rfl, (List.getElem?_eq_some_iff.mp here).1, keeps,
            told ▸ List.prefix_refl _⟩
        | called c' call' _ _ unanswered step' =>
          obtain ⟨rfl, rfl⟩ := QueryPhase.calling.inj place
          exact (asked t q c call' here could).concat move
        | _ => simp at place

end Scene

/-- A task is about to write a notice of a save of a document, or a question for its edits, as a message
    on a connection. -/
inductive Task.Saves (uri : String) (c : Nat) : Task → Message → Prop where
  | notice (e : DocumentEvent) (n : Notification) (tells : n.Tells .didSave uri ∨ n.Tells .willSave uri) :
      Saves uri c (.event e (.writing c n)) (.notification n)
  | query (q : EditQuery) (call : Call) (id : Nat) (about : q.uri = uri)
      (place : call.phase = .registered id) :
      Saves uri c (.query q (.calling c call)) (.request (call.request id))

namespace Scene

variable {setup : Setup}

/-- **Saves follow edits.**  However events, questions and deliveries take their turns, on a connection
    that can be written on:

    * when a task is about to write a notice of a save of a document, or a question for its edits, what
      the server has been told of the document first keeps up with the changes that had been accepted at
      some moment since the task was called: it was told the last of them, and each at most once;
    * when a delivery is about to write, what the server was told of the document with what the delivery
      writes still keeps up with the changes that were accepted, so no change is told twice;
    * what counts as accepted stays so as long as the server has the document open. -/
theorem saves_follow_edits (moves : List Move) (c : Nat) (uri : String)
    (can : (((machine setup).after moves).session.connection c).canWrite = true) :
    let s := ((machine setup).after moves).session
    (∀ (t : Nat) (task : Task) (m : Message), s.tasks[t]? = some task → task.Saves uri c m →
      task.Writes c m ∧ CaughtUp setup moves t uri c) ∧
    (∀ (i generation deadline : Nat) (params : DidChangeParams),
      s.tasks[i]? = some (.delivery uri generation deadline (.writing c params)) →
      Keeps s.sync.kind (changesTold uri (s.told c ++ [notice "textDocument/didChange" params]))
        (accepted setup uri moves)) ∧
    ∀ call since : List Move, (∀ first rest, since = first ++ rest → first ≠ [] →
        ((machine setup).after (call ++ first)).session.sync.isAnnounced uri = true) →
      accepted setup uri call <+: accepted setup uri (call ++ since) := by
  intro s
  refine ⟨fun t task m here saves => ?_, fun i generation deadline params here => ?_, accepted_grows⟩
  · cases saves with
    | notice e n tells =>
      have keeps := keeps_of_holds here trivial (Or.inl rfl) can (cleared_after moves t _ uri here tells)
      have same : changesTold uri (s.told c ++ [n]) = changesTold uri (s.told c) :=
        tells.elim (fun tells => changesTold_save tells (Or.inr rfl))
          fun tells => changesTold_save tells (Or.inl rfl)
      rw [show (Task.event e (.writing c n)).owed = [n] from rfl, same] at keeps
      exact ⟨.noticed n rfl, moves, [], _, by simp, (List.getElem?_eq_some_iff.mp here).1, keeps,
        List.prefix_refl _⟩
    | query q call id about place =>
      subst about
      exact ⟨.asked call id rfl place, caughtUp_of_asked moves t q c call here can⟩
  · exact keeps_of_holds here trivial (Or.inl rfl) can (cleared_after moves i _ uri here rfl)

end Scene

/-- The event for which a task is about to write, with the connection and the notice. -/
def Task.notice? : Task → Option (DocumentEvent × Nat × Notification)
  | .event e (.writing c n) => some (e, c, n)
  | _ => none

theorem Task.eq_of_notice? {task? : Option Task} {e : DocumentEvent} {c : Nat} {n : Notification}
    (writing : task?.bind Task.notice? = some (e, c, n)) : task? = some (.event e (.writing c n)) := by
  obtain ⟨task, rfl, same⟩ := Option.bind_eq_some_iff.mp writing
  unfold Task.notice? at same
  split at same
  · simpa using same
  · simp at same

namespace Scene

/-- A document is opened and edited; the edit waits. -/
def edited : List Move :=
  began ++ [.event (.opened ⟨"file:///a.rs", "rust", 1, "fn"⟩)] ++ steps 2 3 ++
    [.event (.changed ⟨"file:///a.rs", 2, [], "fn m"⟩)] ++ steps 3 2

/-- While the edit waits the document is saved: the edit has gone ahead, and the notice of the save is
    about to be written. -/
def editedAndSaved : List Move :=
  edited ++ ([.event (.saved "file:///a.rs" none)] ++ steps 5 4)

/-- The notice of the save comes after the edit that waited. -/
theorem saves_follow_edits_editedAndSaved :
    let s := ((machine wholeTexts).after editedAndSaved).session
    let save := notice "textDocument/didSave" (⟨⟨"file:///a.rs"⟩, none⟩ : DidSaveParams)
    (s.connection 0).canWrite = true ∧
    s.tasks[5]? = some (.event (.saved "file:///a.rs" none) (.writing 0 save)) ∧
    accepted wholeTexts "file:///a.rs" editedAndSaved = [⟨"file:///a.rs", 2, [], "fn m"⟩] ∧
    CaughtUp wholeTexts editedAndSaved 5 "file:///a.rs" 0 := by
  intro s save
  have can : (s.connection 0).canWrite = true := by decide +kernel
  have writing : s.tasks[5]?.bind Task.notice? = some (.saved "file:///a.rs" none, 0, save) := by
    decide +kernel
  have here := Task.eq_of_notice? writing
  have taken : accepted wholeTexts "file:///a.rs" editedAndSaved =
      [⟨"file:///a.rs", 2, [], "fn m"⟩] := by decide +kernel
  have saves : (Task.event (.saved "file:///a.rs" none) (.writing 0 save)).Saves "file:///a.rs" 0
      (.notification save) := .notice _ _ (Or.inl (Notification.tells_didSave _))
  exact ⟨can, here, taken, ((saves_follow_edits editedAndSaved 0 "file:///a.rs" can).1 5 _ _ here saves).2⟩

/-- While the edit waits the document is closed; then it is opened again and saved, and the notice of the
    save is about to be written. -/
def closedAndSaved : List Move :=
  edited ++ ([.event (.closed "file:///a.rs")] ++ steps 5 3 ++
    [.event (.opened ⟨"file:///a.rs", "rust", 3, "fn"⟩)] ++ steps 6 3 ++
    [.event (.saved "file:///a.rs" none)] ++ steps 7 3)

/-- A change that waits when its document is closed is dropped.  So a save of the document, when it is open
    again, does not follow that edit: the edit was accepted before the save was called, and the server is
    told of the save on the same connection, but of no change at all. -/
theorem not_saves_follow_dropped_edits :
    let s := ((machine wholeTexts).after edited).session
    let s' := ((machine wholeTexts).after closedAndSaved).session
    let save := notice "textDocument/didSave" (⟨⟨"file:///a.rs"⟩, none⟩ : DidSaveParams)
    edited <+: closedAndSaved ∧
    accepted wholeTexts "file:///a.rs" edited = [⟨"file:///a.rs", 2, [], "fn m"⟩] ∧
    s.tasks.length ≤ 7 ∧
    s'.tasks[7]? = some (.event (.saved "file:///a.rs" none) (.writing 0 save)) ∧
    s'.state = .running ∧ (s'.connection 0).canWrite = true ∧
    ∀ n ∈ s'.told 0, ¬ n.Tells .didChange "file:///a.rs" := by
  intro s s' save
  have writing : s'.tasks[7]?.bind Task.notice? = some (.saved "file:///a.rs" none, 0, save) := by
    decide +kernel
  have silent : ∀ n ∈ s'.told 0, n.kind? ≠ some .didChange := by decide +kernel
  refine ⟨List.prefix_append _ _, by decide +kernel, by decide +kernel,
    Task.eq_of_notice? writing, by decide +kernel, by decide +kernel, ?_⟩
  exact fun n among tells => silent n among tells.kind

end Scene

end LanguageClient
