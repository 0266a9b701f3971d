import LanguageClient.Proofs.Document.LastChange
import LanguageClient.Proofs.Session.Attached
import LanguageClient.Proofs.Session.Staged
/-!
# Coalescing loses nothing

With full synchronisation a change waits for a while, and a later one takes its place.  What matters is
the change of a document that was accepted last since the server has it open (`lastAccepted`): as long
as something waits for the document, it is this change, and otherwise it is the one that the server was
told last.  This holds as long as the session runs and can write (`RanOn.upheld`).

A delivery that is about to write has taken the change out while it waited, and holds the lock on the
documents since then: nothing was told in between, and no later change was accepted (`Carries`).
-/

namespace LanguageClient

open Session (notice)

/-! ## Deliveries under way -/

/-- What a delivery is about to tell. -/
def DeliveryPhase.params? : DeliveryPhase → Option DidChangeParams
  | .looking params | .writing _ params => some params
  | _ => none

namespace Session

variable {now : Nat} {h h' : Host} {s s' : Session} {t i : Nat} {task task' : Task}
  {uri : String} {generation deadline : Nat} {p : DeliveryPhase} {params : DidChangeParams}

theorem holds_of_params? (carrying : p.params? = some params) :
    (Task.delivery uri generation deadline p).HoldsSync := by
  cases p with
  | looking | writing => trivial
  | _ => simp [DeliveryPhase.params?] at carrying

/-- A delivery that is about to tell something has just taken it out, or it was about to tell it before
    and nothing has happened since. -/
theorem Moved.carrying (moved : Moved now h s h' s') (locked : s.Locked)
    (here' : s'.tasks[i]? = some (.delivery uri generation deadline p))
    (carrying : p.params? = some params) :
    (∀ c, s'.told c = s.told c) ∧
    ((s'.sync = s.sync ∧ ∃ q : DeliveryPhase, q.params? = some params ∧
        s.tasks[i]? = some (.delivery uri generation deadline q)) ∨
      s.state = .running ∧
        s.sync.step (.takeStaged uri generation) = (.released (some params), s'.sync)) := by
  cases moved with
  | served _ _ serves =>
    have told := serves.told
    obtain ⟨c, connection, registry, handlers, passing, diagnostics, -, -, rfl⟩ := serves
    exact ⟨told, Or.inl ⟨rfl, p, carrying, here'⟩⟩
  | task t task _ s₁ task' here step =>
    -- its own step has taken out the change, or it was about to tell it already
    rcases step.at here here' with ⟨rfl, rfl⟩ | ⟨other, same | ⟨-, born⟩⟩
    · cases step with
      | delivery _ _ _ q _ _ step =>
        cases step with
        | taken params' sync free running taken =>
          obtain rfl := Option.some.inj carrying
          exact ⟨fun c => rfl, Or.inr ⟨running, taken⟩⟩
        | found c params' current =>
          exact ⟨fun c => rfl, Or.inl ⟨rfl, .looking params', carrying, here⟩⟩
        | _ => simp [DeliveryPhase.params?] at carrying
    · -- the delivery holds the lock, so nobody else does anything about documents
      have holds : (Task.delivery uri generation deadline p).HoldsSync := holds_of_params? carrying
      have held := locked.holder i _ same holds
      have idle : ¬ task.HoldsSync := fun also =>
        other (locked.unique same holds here also)
      refine ⟨step.told_of_idle idle, Or.inl ⟨?_, p, carrying, same⟩⟩
      rcases step.sync_use.locked with kept | also | free
      · exact kept
      · exact absurd also idle
      · simp [free] at held
    · cases born
      simp [DeliveryPhase.params?] at carrying

end Session

namespace Scene

variable {setup : Setup} {moves : List Move} {move : Move} {d d' : Scene} {t i c : Nat} {kind : SyncKind}
  {uri : String} {generation deadline : Nat} {p : DeliveryPhase} {params : DidChangeParams}

/-! ## The change accepted last -/

/-- The change of a document that a move accepts, to be told as a whole text. -/
def accepted? (uri : String) (d : Scene) : Move → Option StagedChange
  | .act (.task t) =>
    match d.session.tasks[t]?, d.session.current with
    | some (.event (.changed c) .looking), some _ =>
      match d.session.sync.change c with
      | .ok (.staged generation, _) => if c.uri = uri then some (c.stagedAs generation) else none
      | _ => none
    | _, _ => none
  | _ => none

/-- The change of a document that was accepted last since the server has the document open. -/
def lastAccepted (setup : Setup) (uri : String) (moves : List Move) : Option StagedChange :=
  (machine setup).remembered (fun d move last =>
    if (d.step move).session.sync.isAnnounced uri then (d.accepted? uri move).or last else none)
    none moves

theorem lastAccepted_concat (setup : Setup) (uri : String) (moves : List Move) (move : Move) :
    lastAccepted setup uri (moves ++ [move]) =
      if ((machine setup).after (moves ++ [move])).session.sync.isAnnounced uri then
        (((machine setup).after moves).accepted? uri move).or (lastAccepted setup uri moves)
      else none := by
  simp [lastAccepted]

/-- Nothing counts of what was accepted for a document that the server does not have open. -/
theorem lastAccepted_of_closed
    (closed : ((machine setup).after moves).session.sync.isAnnounced uri = false) :
    lastAccepted setup uri moves = none := by
  rcases List.eq_nil_or_concat moves with rfl | ⟨moves, move, rfl⟩
  · rfl
  · rw [List.concat_eq_append] at closed ⊢
    rw [lastAccepted_concat, closed]
    rfl

/-- A change is accepted by an event, which has the connection in use at hand. -/
theorem exists_accepts_of_accepted? {change : StagedChange}
    (accepted : d.accepted? uri move = some change) :
    ∃ t c, move = .act (.task t) ∧ d.session.Accepts t c change.generation ∧ c.uri = uri ∧
      change = c.stagedAs change.generation := by
  unfold accepted? at accepted
  split at accepted
  · rename_i t
    split at accepted
    · rename_i c c' here current
      split at accepted
      · rename_i generation sync answer
        split at accepted
        · rename_i about
          obtain rfl := Option.some.inj accepted
          exact ⟨t, c, rfl, ⟨here, by simp [current], sync, answer⟩, about, rfl⟩
        · simp at accepted
      · simp at accepted
    · simp at accepted
  · simp at accepted

theorem accepted?_of_accepts {c : DocumentChange} {change : StagedChange}
    (accepts : d.session.Accepts t c change.generation) (about : c.uri = uri)
    (same : change = c.stagedAs change.generation) :
    d.accepted? uri (.act (.task t)) = some change := by
  obtain ⟨here, used, sync, answer⟩ := accepts
  obtain ⟨c', current⟩ := Option.ne_none_iff_exists'.mp used
  simp only [accepted?, here, current, answer, about, if_true]
  exact congrArg some same.symm

/-- A change that is accepted waits from then on, under a new generation. -/
theorem staged_of_accepted? {change : StagedChange} (accepted : d.accepted? uri move = some change) :
    (d.step move).session.sync.staged.get? uri = some change ∧
      change.generation = d.session.sync.lastGeneration + 1 := by
  obtain ⟨t, c, rfl, ⟨here, used, sync, answer⟩, rfl, same⟩ := exists_accepts_of_accepted? accepted
  obtain ⟨c', current⟩ := Option.ne_none_iff_exists'.mp used
  have effect := DocumentSync.step_change_transition d.session.sync c
  simp only [DocumentSync.step, answer] at effect
  have after : (d.step (.act (.task t))).session.sync = sync := by
    simp [step, Session.step, Session.stepTask, here, Session.stepEvent, current, Session.beginEvent,
      answer, Session.finishEvent, Session.stage, touch, Session.setTask, Session.unlockSync,
      Session.spawn]
  rw [after]
  generalize place : change.generation = generation at effect same
  cases effect with
  | staged _ lastSent =>
    exact ⟨by simp [same, DocumentChange.stagedAs], rfl⟩

/-- A change that waits after a move has waited before, or the move has accepted it. -/
theorem staged_step (covered : d.session.sync.Covered) {change : StagedChange}
    (there : (d.step move).session.sync.staged.get? uri = some change) :
    d.session.sync.staged.get? uri = some change ∨ d.accepted? uri move = some change := by
  by_cases task : ∃ t, move = .act (.task t)
  · obtain ⟨t, rfl⟩ := task
    rcases step_task covered t with same | ⟨task, h, s₁, task', here, step, same⟩
    · exact Or.inl (same ▸ there)
    · rw [same] at there
      refine (step.staged_cases here covered there).imp_right fun ⟨c, accepts, about, is, _⟩ => ?_
      exact accepted?_of_accepts accepts about is
  · have beside := step_beside (d := d) fun t same => task ⟨t, same⟩
    rcases beside.cases with ⟨-, serves⟩ | ⟨aside, -⟩
    · obtain ⟨c, connection, registry, handlers, passing, diagnostics, -, -, same⟩ := serves
      exact Or.inl (by rw [same] at there; exact there)
    · exact Or.inl (by rw [aside.rest] at there; exact there)

/-- The generations of what waits were handed out. -/
theorem staged_generation_le (moves : List Move) {change : StagedChange}
    (there : ((machine setup).after moves).session.sync.staged.get? uri = some change) :
    change.generation ≤ ((machine setup).after moves).session.sync.lastGeneration := by
  obtain ⟨history, tokens⟩ := @tokens_after setup moves
  exact tokens.staged_le change (Table.mem_values_of_get? there)

/-- What a move accepts is what comes to wait. -/
theorem accepted?_eq_arrived? (setup : Setup) (uri : String) (moves : List Move) (move : Move) :
    ((machine setup).after moves).accepted? uri move =
      ((machine setup).after moves).session.sync.arrived?
        ((machine setup).after (moves ++ [move])).session.sync uri := by
  rw [Machine.after_concat, step_machine]
  cases accepted : ((machine setup).after moves).accepted? uri move with
  | some change =>
    obtain ⟨there, new⟩ := staged_of_accepted? accepted
    have other : ((machine setup).after moves).session.sync.staged.get? uri ≠ some change := by
      intro before
      have := staged_generation_le moves before
      omega
    simp [DocumentSync.arrived?, there, Ne.symm other]
  | none =>
    cases there : (((machine setup).after moves).step move).session.sync.staged.get? uri with
    | none => simp [there]
    | some change =>
      rcases staged_step (covered_after moves) there with before | also
      · simp [DocumentSync.arrived?, there, before]
      · simp [accepted] at also

/-- As long as the bookkeeping stays, the same change is the last one. -/
theorem lastAccepted_of_sync_eq
    (same : ((machine setup).after (moves ++ [move])).session.sync =
      ((machine setup).after moves).session.sync)
    (announced : ((machine setup).after moves).session.sync.isAnnounced uri = true) :
    lastAccepted setup uri (moves ++ [move]) = lastAccepted setup uri moves := by
  rw [lastAccepted_concat, accepted?_eq_arrived?, same, announced]
  simp

/-! ## Along a run -/

/-- As long as the session runs and can write, the change accepted last waits or was told last. -/
theorem RanOn.upheld (ran : RanOn setup moves t c .full)
    (running : ((machine setup).after moves).session.state = .running)
    (can : (((machine setup).after moves).session.connection c).canWrite = true)
    (announced : ((machine setup).after moves).session.sync.isAnnounced uri = true) :
    Upheld uri ((machine setup).after moves).session.sync
      (((machine setup).after moves).session.conversation c) (lastAccepted setup uri moves) := by
  refine ran_induction (fun moves d => d.session.state = .running →
    (d.session.connection c).canWrite = true → d.session.sync.isAnnounced uri = true →
    Upheld uri d.session.sync (d.session.conversation c) (lastAccepted setup uri moves))
    ?_ ?_ ran running can announced
  · intro moves move quiet step _ _ announced
    rw [step.sync] at announced
    exact absurd ((quiet.closed uri).symm.trans announced) (by simp)
  · rintro moves move d d' rfl rfl ran change upheld running can announced
    obtain ⟨notes, telling, heard⟩ := ran.telling move running can
    have was := ran.was_running running
    have could := change.canWrite c can
    rw [heard, lastAccepted_concat, announced, if_pos rfl, accepted?_eq_arrived?]
    exact telling.upheld (covered_after moves) ran.sync_kind
      (fun change there => staged_generation_le moves there) lastAccepted_of_closed
      (upheld was could) announced

/-- What a delivery is about to tell: it has taken the change out when it waited, and since then nothing
    was told of any document, and the change is still the last one accepted for its document, which the
    server has open. -/
structure Carries (setup : Setup) (moves : List Move) (c : Nat) (uri : String) (generation : Nat)
    (params : DidChangeParams) (change : StagedChange) : Prop where
  generation : change.generation = generation
  params : params = DocumentSync.didChange uri change.version [.full change.text]
  waited : (machine setup).Once moves fun d => d.session.sync.staged.get? uri = some change ∧
    d.session.told c = ((machine setup).after moves).session.told c
  last : lastAccepted setup uri moves = some change
  announced : ((machine setup).after moves).session.sync.isAnnounced uri = true

/-- A change that is carried is carried on, as long as the bookkeeping stays and nothing is told. -/
theorem Carries.concat {change : StagedChange}
    (carries : Carries setup moves c uri generation params change)
    (sync : ((machine setup).after (moves ++ [move])).session.sync =
      ((machine setup).after moves).session.sync)
    (told : ((machine setup).after (moves ++ [move])).session.told c =
      ((machine setup).after moves).session.told c) :
    Carries setup (moves ++ [move]) c uri generation params change where
  generation := carries.generation
  params := carries.params
  waited := (carries.waited.append [move]).imp fun _ ⟨waits, same⟩ => ⟨waits, same.trans told.symm⟩
  last := (lastAccepted_of_sync_eq sync carries.announced).trans carries.last
  announced := sync ▸ carries.announced

theorem Change.carrying (change : Change d d') (locked : d.session.Locked)
    (here' : d'.session.tasks[i]? = some (.delivery uri generation deadline p))
    (carrying : p.params? = some params) :
    (∀ c, d'.session.told c = d.session.told c) ∧
    ((d'.session.sync = d.session.sync ∧ ∃ q : DeliveryPhase, q.params? = some params ∧
        d.session.tasks[i]? = some (.delivery uri generation deadline q)) ∨
      d.session.state = .running ∧ d.session.sync.step (.takeStaged uri generation) =
        (.released (some params), d'.session.sync)) := by
  rcases change.cases with ⟨-, moved⟩ | ⟨aside, -⟩
  · exact moved.carrying locked here' carrying
  · refine ⟨fun c => by rw [aside.rest]; rfl, Or.inl ⟨by rw [aside.rest], p, carrying, ?_⟩⟩
    rcases aside.place i _ here' with same | ⟨-, fresh⟩ | ⟨method, params', cancelled, q, -, other⟩
    · exact same
    · cases fresh
    · simp at other

/-- A delivery that has just taken out what waited carries the change that was accepted last. -/
theorem Carries.of_taken (ran : RanOn setup moves t c .full)
    (running : ((machine setup).after moves).session.state = .running)
    (can : (((machine setup).after moves).session.connection c).canWrite = true)
    (told : ((machine setup).after (moves ++ [move])).session.told c =
      ((machine setup).after moves).session.told c)
    (taken : ((machine setup).after moves).session.sync.step (.takeStaged uri generation) =
      (.released (some params), ((machine setup).after (moves ++ [move])).session.sync)) :
    ∃ change, Carries setup (moves ++ [move]) c uri generation params change := by
  have covered := @covered_after setup moves
  have found : (((machine setup).after moves).session.sync.takeStaged uri generation).1 =
      some params := SyncAnswer.released.inj (Prod.mk.inj taken).1
  obtain ⟨change, waits, same, tells⟩ := (DocumentSync.takeStaged_eq_some_iff covered).mp found
  -- what waits is about a document that is announced
  have announced : ((machine setup).after moves).session.sync.isAnnounced uri = true := by
    by_contra closed
    have absent := covered uri (by simpa [DocumentSync.isAnnounced, Table.has] using closed)
    simp [waits] at absent
  -- a change that waits is the last one that was accepted
  have last : lastAccepted setup uri moves = some change := by
    have upheld := ran.upheld running can announced
    simpa [Upheld, waits] using upheld
  have effect := DocumentSync.step_transition covered (.takeStaged uri generation)
  rw [taken] at effect
  have announced' := (effect.isAnnounced_of_released uri).trans announced
  have gone : ((machine setup).after (moves ++ [move])).session.sync.staged.get? uri = none :=
    DocumentSync.staged_of_taken covered taken
  refine ⟨change, same, tells, ⟨moves, [move], rfl, waits, told.symm⟩, ?_, announced'⟩
  rw [lastAccepted_concat, announced', if_pos rfl, accepted?_eq_arrived?,
    DocumentSync.arrived?_none gone, last]
  rfl

/-- **Deliveries tell what counts.**  A delivery that is about to write carries the change that was
    accepted last. -/
theorem RanOn.carries (ran : RanOn setup moves t c .full)
    (can : (((machine setup).after moves).session.connection c).canWrite = true)
    (here : ((machine setup).after moves).session.tasks[i]? =
      some (.delivery uri generation deadline p))
    (carrying : p.params? = some params) :
    ∃ change, Carries setup moves c uri generation params change := by
  refine ran_induction (fun moves d => (d.session.connection c).canWrite = true → ∀ p,
    d.session.tasks[i]? = some (.delivery uri generation deadline p) → p.params? = some params →
    ∃ change, Carries setup moves c uri generation params change) ?_ ?_ ran can p here carrying
  · intro moves move quiet step _ p here carrying
    -- the start has the lock when the session begins to run
    have holds : (Task.delivery uri generation deadline p).HoldsSync :=
      Session.holds_of_params? carrying
    obtain rfl := (locked_after (moves ++ [move])).unique here holds step.here trivial
    rw [step.here] at here
    simp at here
  · rintro moves move d d' rfl rfl ran change carries can p here carrying
    have could := change.canWrite c can
    obtain ⟨told, ⟨sync, q, carried, before⟩ | ⟨running, taken⟩⟩ :=
      change.carrying (locked_after moves) here carrying
    · obtain ⟨change', carries⟩ := carries could q before carried
      exact ⟨change', carries.concat sync (told c)⟩
    · exact Carries.of_taken ran running could (told c) taken

/-- When a delivery is about to write, the server has the document open by what it was told. -/
theorem RanOn.open_of_writing (ran : RanOn setup moves t c .full)
    (can : (((machine setup).after moves).session.connection c).canWrite = true)
    (here : ((machine setup).after moves).session.tasks[i]? =
      some (.delivery uri generation deadline (.writing c params))) :
    ∃ text, serverState uri (((machine setup).after moves).session.told c) =
      some (.opened text) := by
  have locked := @locked_after setup moves
  obtain ⟨change, carries⟩ := ran.carries can here rfl
  rcases ran.agreeing with agrees | ⟨cannot | ⟨-, idle⟩, -⟩
  · obtain ⟨state, read, -⟩ := agrees.state uri
    have owed := locked.owed here (Or.inr (locked.holder i _ here trivial))
    rw [Session.conversation, owed, carries.params, serverState_append] at read
    obtain ⟨before, told, took⟩ := Option.bind_eq_some_iff.mp read
    have tells := change.tells_notice uri
    cases before with
    | opened text => exact ⟨text, told⟩
    | closed =>
      -- a closed document does not take a change
      change (List.filter (·.concerns uri) [change.notice uri]).foldlM DocumentState.take .closed =
        some state at took
      simp [tells.concerns, tells.take, DocumentState.takeKind] at took
  · simp [can] at cannot
  · simpa [Task.connection?] using idle i _ here trivial

end Scene

/-! ## When nobody is left -/

/-- A task will come for a change that waits. -/
def Task.Pending : Task → Prop
  | .delivery _ _ _ p => p.Pending
  | _ => False

instance (task : Task) : Decidable task.Pending := by
  unfold Task.Pending
  split <;> infer_instance

namespace Session

/-- Nobody is about to tell the server anything of documents, and nobody will come for a change. -/
def AtRest (s : Session) : Prop :=
  ∀ task ∈ s.tasks, ¬ task.HoldsSync ∧ ¬ task.Pending

instance (s : Session) : Decidable s.AtRest :=
  inferInstanceAs (Decidable (∀ task ∈ s.tasks, ¬ task.HoldsSync ∧ ¬ task.Pending))

theorem AtRest.staged_eq_none {s : Session} (rest : s.AtRest) (delivered : s.Delivered)
    (uri : String) : s.sync.staged.get? uri = none := by
  cases there : s.sync.staged.get? uri with
  | none => rfl
  | some change =>
    obtain ⟨-, i, deadline, p, here, pending⟩ := delivered uri change there
    exact absurd pending (rest _ (List.mem_of_getElem? here)).2

end Session

namespace Scene

variable {setup : Setup} {moves : List Move} {t c : Nat}

/-- The counter of generations never gets ahead of the number of moves: sixty-four bits hold it along every
    run of fewer than `2 ^ 64` moves. -/
theorem lastGeneration_le_length (moves : List Move) :
    ((machine setup).after moves).session.sync.lastGeneration ≤ moves.length := by
  refine run_changes (fun moves d => d.session.sync.lastGeneration ≤ moves.length) ?_ ?_ moves
  · simp [machine, Session.ofConfig, DocumentSync.new]
  · rintro moves move d d' rfl rfl change ih
    rw [List.length_append, List.length_singleton]
    rcases change.cases with ⟨-, moved⟩ | ⟨aside, -⟩
    · rcases moved.sync_cases with same | ⟨op, same⟩
      · exact same ▸ Nat.le_succ_of_le ih
      · have step := DocumentSync.step_transition (@covered_after setup moves) op
        exact same ▸ Nat.le_trans step.lastGeneration_le (Nat.succ_le_succ ih)
    · rw [aside.rest]
      exact Nat.le_succ_of_le ih

/-- **Coalescing loses nothing.**  However edits, saves, questions, closings and deliveries take their
    turns once a session has begun to run with full synchronisation:

    * whenever a change waits, there is a delivery that holds its generation, that has not lapsed, and
      that will come for it;
    * so when nobody is left who would tell anything, nothing waits;
    * as long as the session runs and its connection can be written on, the change of an open document
      that was accepted last waits, or it is the one the server was told last; and when nobody is left,
      the last `didChange` of each open document carries the version and the text of the last change
      accepted for it;
    * a delivery that is about to write has taken its change out when it waited, and nothing was told
      since; the change is still the last one accepted for its document, and the server has the document
      open. -/
theorem coalescing_loses_nothing (ran : RanOn setup moves t c .full) :
    let s := ((machine setup).after moves).session
    s.Delivered ∧
    (s.AtRest → ∀ uri, s.sync.staged.get? uri = none) ∧
    (s.state = .running → (s.connection c).canWrite = true →
      ∀ uri, s.sync.isAnnounced uri = true →
        Upheld uri s.sync (s.conversation c) (lastAccepted setup uri moves) ∧
        (s.AtRest →
          lastChange uri (s.told c) = (lastAccepted setup uri moves).map (·.notice uri))) ∧
    ∀ (i : Nat) (uri : String) (generation deadline c' : Nat) (params : DidChangeParams),
      s.tasks[i]? = some (.delivery uri generation deadline (.writing c' params)) →
      (s.connection c').canWrite = true →
      c' = c ∧ (∃ change, Carries setup moves c uri generation params change) ∧
        ∃ text, serverState uri (s.told c) = some (.opened text) := by
  intro s
  have delivered : s.Delivered := delivered_after moves
  refine ⟨delivered, fun rest => rest.staged_eq_none delivered, fun running can uri announced => ?_,
    fun i uri generation deadline c' params here can => ?_⟩
  · have upheld := ran.upheld running can announced
    refine ⟨upheld, fun rest => ?_⟩
    have nothing : ((machine setup).after moves).session.sync.staged.get? uri = none :=
      rest.staged_eq_none delivered uri
    rw [Upheld, nothing, Session.conversation_eq_told (fun task among => (rest task among).1) c] at upheld
    exact upheld
  · obtain rfl : c' = c := ran.on.held i _ c' here trivial rfl
    exact ⟨rfl, ran.carries can here rfl, ran.open_of_writing can here⟩

end Scene

/-- The delivery that a task is. -/
def Task.delivery? : Task → Option (String × Nat × Nat × DeliveryPhase)
  | .delivery uri generation deadline p => some (uri, generation, deadline, p)
  | _ => none

theorem Task.eq_of_delivery? {task? : Option Task} {uri : String} {generation deadline : Nat}
    {p : DeliveryPhase}
    (delivery : task?.bind Task.delivery? = some (uri, generation, deadline, p)) :
    task? = some (.delivery uri generation deadline p) := by
  obtain ⟨task, rfl, same⟩ := Option.bind_eq_some_iff.mp delivery
  cases task with
  | delivery => simpa [Task.delivery?] using same
  | _ => simp [Task.delivery?] at same

namespace Scene

/-- A server that wants whole texts of the documents of one language. -/
def wholeTexts : Setup :=
  { host := { root := "/w" }
    server :=
      { name := "fake", transport := .process "fake-ls" []
        languages := ["rust"] } }

/-- The task takes some steps. -/
def steps (t n : Nat) : List Move :=
  List.replicate n (.act (.task t))

/-- The session begins to run with full synchronisation. -/
def began : List Move :=
  let result : Json := .obj [("capabilities", .obj [("textDocumentSync", .int 1)])]
  [.start] ++ steps 0 6 ++
    [.feed 0 (Utf8.encodeString (Message.response (.success (.number 1) result)).frame),
      .act (.reader 0), .act (.reader 0)] ++ steps 0 6

/-- A document is opened and edited twice; the delivery of the first edit finds that it has lapsed, and
    the one of the second edit is about to write. -/
def editedTwice : List Move :=
  began ++ [.event (.opened ⟨"file:///a.rs", "rust", 1, "fn"⟩)] ++ steps 2 3 ++
    [.event (.changed ⟨"file:///a.rs", 2, [], "fn m"⟩)] ++ steps 3 2 ++
    [.event (.changed ⟨"file:///a.rs", 3, [], "fn main"⟩)] ++ steps 5 2 ++
    [.pass 100] ++ steps 4 1 ++ steps 6 3

/-- The delivery has written. -/
def toldTheSecond : List Move :=
  editedTwice ++ steps 6 1

/-- While the delivery of the second edit is about to write, the edit is the last one accepted; when it
    has written, nobody is left, and the second edit is what the server was told last. -/
theorem coalescing_loses_nothing_editedTwice :
    let params := DocumentSync.didChange "file:///a.rs" 3 [.full "fn main"]
    let s := ((machine wholeTexts).after editedTwice).session
    let s' := ((machine wholeTexts).after toldTheSecond).session
    (∃ t, RanOn wholeTexts editedTwice t 0 .full) ∧
    s.tasks[6]?.bind Task.delivery? = some ("file:///a.rs", 2, 100, .writing 0 params) ∧
    (∃ change, Carries wholeTexts editedTwice 0 "file:///a.rs" 2 params change) ∧
    s'.AtRest ∧
    lastChange "file:///a.rs" (s'.told 0) = some (notice "textDocument/didChange" params) := by
  intro params s s'
  have runs : s.state = .running ∧ s.current = some 0 := by decide +kernel
  have runs' : s'.state = .running ∧ s'.current = some 0 := by decide +kernel
  have full : ((machine wholeTexts).after editedTwice).session.sync.kind = .full := by
    decide +kernel
  have full' : ((machine wholeTexts).after toldTheSecond).session.sync.kind = .full := by
    decide +kernel
  obtain ⟨t, ran⟩ : ∃ t, RanOn wholeTexts editedTwice t 0 .full :=
    exists_ranOn runs.1 runs.2 full
  obtain ⟨t', ran'⟩ : ∃ t, RanOn wholeTexts toldTheSecond t 0 .full :=
    exists_ranOn runs'.1 runs'.2 full'
  have delivery : s.tasks[6]?.bind Task.delivery? =
      some ("file:///a.rs", 2, 100, .writing 0 params) := by decide +kernel
  have can : (s.connection 0).canWrite = true := by decide +kernel
  have can' : (s'.connection 0).canWrite = true := by decide +kernel
  have announced : s'.sync.isAnnounced "file:///a.rs" = true := by decide +kernel
  have rest : s'.AtRest := by decide +kernel
  have last : lastAccepted wholeTexts "file:///a.rs" toldTheSecond =
      some ⟨3, "fn main", 2⟩ := by decide +kernel
  have carried := (coalescing_loses_nothing ran).2.2.2 6 _ 2 100 0 params
    (Task.eq_of_delivery? delivery) can
  have told := ((coalescing_loses_nothing ran').2.2.1 runs'.1 can' _ announced).2 rest
  rw [last] at told
  exact ⟨⟨t, ran⟩, delivery, carried.2.1, rest, told⟩

end Scene

end LanguageClient
