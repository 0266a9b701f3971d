import LanguageClient.Proofs.Session.Life
import LanguageClient.Proofs.Sync.History
import LanguageClient.Session.Document
/-!
# Steps of what is told and asked of documents

What an event, the delivery of a staged change, a question for edits and a request of the user can do
in one step: `EventStep`, `DeliveryStep`, `QueryStep` and `RequestStep`, each with one lemma that is
the only one to look into the steps.

The bookkeeping changes by single operations of `DocumentSync.step`, and nothing is staged for a
document that the server does not have open (`DocumentSync.Covered`).
-/

namespace LanguageClient.Session

variable {now : Nat} {h : Host} {s s' : Session} {me : Nat}

/-! ## Releasing what is staged -/

/-- Flushing finds nothing and changes nothing, or releases a change. -/
theorem flush_cases (covered : s.sync.Covered) (uri : String) :
    (s.sync.flush uri = (none, s.sync) ∧ s.sync.staged.get? uri = none) ∨
    ∃ params sync, s.sync.flush uri = (some params, sync) ∧
      s.sync.step (.flush uri) = (.released (some params), sync) := by
  rcases DocumentSync.release_cases covered uri with ⟨none, same⟩ | ⟨change, _, _, _, released⟩
  · exact Or.inl ⟨same, none⟩
  · exact Or.inr ⟨_, _, released, by simp [DocumentSync.step, DocumentSync.flush, released]⟩

/-! ## Events -/

/-- The server has nothing to be told of an event that concerns the bookkeeping. -/
def Unheard (sync : DocumentSync) : DocumentEvent → Prop
  | .opened d => sync.open d = (none, sync)
  | .changed change => sync.change change = .ok (.ignore, sync)
  | .willSave uri _ | .saved uri _ | .closed uri => sync.isAnnounced uri = false

inductive EventStep (now : Nat) (h : Host) (s : Session) (me : Nat) :
    DocumentEvent → EventPhase → Session → EventPhase → Prop where
  | dropped (e : DocumentEvent) (free : s.syncOwner = none) (idle : s.state ≠ .running) :
      EventStep now h s me e .locking s (.ended (.ok ()))
  | entered (e : DocumentEvent) (free : s.syncOwner = none) (running : s.state = .running) :
      EventStep now h s me e .locking (s.lockSync me) .looking
  | stranded (e : DocumentEvent) (unused : s.current = none) :
      EventStep now h s me e .looking s.unlockSync (.ended (.ok ()))
  | passed (e : DocumentEvent) (c : Nat) (current : s.current = some c) (unheard : Unheard s.sync e) :
      EventStep now h s me e .looking s.unlockSync (.ended (.ok ()))
  | opened (d : Document) (c : Nat) (params : DidOpenParams) (sync : DocumentSync)
      (current : s.current = some c) (told : s.sync.step (.open d) = (.opened (some params), sync)) :
      EventStep now h s me (.opened d) .looking { s with sync }
        (.writing c (notice "textDocument/didOpen" params))
  | refused (change : DocumentChange) (c : Nat) (e : ClientError) (current : s.current = some c)
      (stale : s.sync.step (.change change) = (.refused e, s.sync)) :
      EventStep now h s me (.changed change) .looking s.unlockSync (.ended (.error e))
  | sent (change : DocumentChange) (c : Nat) (params : DidChangeParams) (sync : DocumentSync)
      (current : s.current = some c)
      (told : s.sync.step (.change change) = (.changed (.send params), sync)) :
      EventStep now h s me (.changed change) .looking { s with sync }
        (.writing c (notice "textDocument/didChange" params))
  | staged (change : DocumentChange) (c generation : Nat) (sync : DocumentSync)
      (current : s.current = some c)
      (told : s.sync.step (.change change) = (.changed (.staged generation), sync)) :
      EventStep now h s me (.changed change) .looking
        ({ s with sync }.stage now change.uri generation).unlockSync (.ended (.ok ()))
  | closed (uri : String) (c : Nat) (params : DidCloseParams) (sync : DocumentSync)
      (current : s.current = some c) (told : s.sync.step (.close uri) = (.closed (some params), sync)) :
      EventStep now h s me (.closed uri) .looking { s with sync }
        (.writing c (notice "textDocument/didClose" params))
  | regarded (e : DocumentEvent) (c : Nat) (current : s.current = some c)
      (announced : s.sync.isAnnounced e.uri = true)
      (nothing : ∀ uri text, e = .saved uri text → s.sync.staged.get? uri = none) :
      EventStep now h s me e .looking s (.checking c)
  | flushed (e : DocumentEvent) (c : Nat) (p : EventPhase) (params : DidChangeParams)
      (sync : DocumentSync)
      (place : p = .looking ∧ s.current = some c ∧ s.sync.isAnnounced e.uri = true ∨
        p = .checking c ∨ ∃ language, p = .matching c language)
      (told : s.sync.step (.flush e.uri) = (.released (some params), sync)) :
      EventStep now h s me e p { s with sync } (.flushing c params)
  | asked (e : DocumentEvent) (c : Nat) (p p' : EventPhase)
      (place : p = .checking c ∧ p' = .naming c ∨
        p = .naming c ∧ ∃ language, p' = .matching c language) :
      EventStep now h s me e p s p'
  | warned (uri : String) (reason : SaveReason) (c : Nat) (p : EventPhase)
      (place : p = .checking c ∨ ∃ language, p = .matching c language)
      (nothing : s.sync.staged.get? uri = none) :
      EventStep now h s me (.willSave uri reason) p s (.writing c (willSaveNotice uri reason))
  | saved (uri : String) (text text' : Option String) (c : Nat) (p : EventPhase)
      (place : p = .checking c ∨ p = .naming c) (announced : s.sync.isAnnounced uri = true)
      (content : p = .checking c ∧ (text' = none ∨ text' = text) ∨
        p = .naming c ∧ text' = (h.document? uri).map (·.text)) :
      EventStep now h s me (.saved uri text) p s
        (.writing c (notice "textDocument/didSave" (⟨⟨uri⟩, text'⟩ : DidSaveParams)))
  | left (e : DocumentEvent) (c : Nat) (p : EventPhase)
      (place : p = .checking c ∨ p = .naming c ∨ ∃ language, p = .matching c language) :
      EventStep now h s me e p s.unlockSync (.ended (.ok ()))
  | ahead (e : DocumentEvent) (c : Nat) (params : DidChangeParams) (s₁ : Session) (p : EventPhase)
      (can : (s.connection c).canWrite = true)
      (next : (∃ uri reason, e = .willSave uri reason ∧ p = .writing c (willSaveNotice uri reason) ∧
          s₁ = s.writes c (.notification (notice "textDocument/didChange" params))) ∨
        (∃ uri text, e = .saved uri text ∧ p = .checking c ∧
          s₁ = s.writes c (.notification (notice "textDocument/didChange" params))) ∨
        p = .ended (.ok ()) ∧
          s₁ = (s.writes c (.notification (notice "textDocument/didChange" params))).unlockSync) :
      EventStep now h s me e (.flushing c params) s₁ p
  | wrote (e : DocumentEvent) (c : Nat) (n : Notification) (can : (s.connection c).canWrite = true) :
      EventStep now h s me e (.writing c n) (s.writes c (.notification n)).unlockSync (.ended (.ok ()))
  | failed (e : DocumentEvent) (c : Nat) (p : EventPhase) (error : ClientError)
      (place : (∃ params, p = .flushing c params) ∨ ∃ n, p = .writing c n)
      (cannot : (s.connection c).canWrite = false) :
      EventStep now h s me e p s.unlockSync (.ended (.error error))

theorem beginEvent_cases (covered : s.sync.Covered) {c : Nat} (current : s.current = some c)
    {e : DocumentEvent} {p : EventPhase} (step : s.beginEvent now c e = (s', p)) :
    EventStep now h s me e .looking s' p := by
  cases e with
  | opened d =>
    -- an open passes over a document that the selector leaves out, or that is open already
    cases told : s.sync.open d with
    | mk params sync =>
      cases params with
      | none =>
        have same : s.sync.open d = (none, s.sync) :=
          DocumentSync.open_of_fst_eq_none (by simp [told])
        obtain ⟨rfl, rfl⟩ := by simpa [beginEvent, same, tell, finishEvent] using step
        exact .passed _ c current same
      | some params =>
        obtain ⟨rfl, rfl⟩ := by simpa [beginEvent, told, tell] using step
        exact .opened d c params sync current (by simp [DocumentSync.step, told])
  | changed change =>
    simp only [beginEvent] at step
    split at step
    · rename_i e stale
      obtain ⟨rfl, rfl⟩ := by simpa [finishEvent] using step
      exact .refused change c e current (by simp [DocumentSync.step, stale])
    · rename_i sync ignored
      obtain rfl := DocumentSync.eq_of_change_eq_ignore ignored
      obtain ⟨rfl, rfl⟩ := by simpa [finishEvent] using step
      exact .passed _ c current ignored
    · rename_i params sync told
      obtain ⟨rfl, rfl⟩ := by simpa [tell] using step
      exact .sent change c params sync current (by simp [DocumentSync.step, told])
    · rename_i generation sync told
      obtain ⟨rfl, rfl⟩ := by simpa [finishEvent] using step
      exact .staged change c generation sync current (by simp [DocumentSync.step, told])
  | willSave uri reason =>
    simp only [beginEvent] at step
    split at step
    · rename_i announced
      obtain ⟨rfl, rfl⟩ := by simpa using step
      exact .regarded _ c current announced (by simp)
    · rename_i unknown
      obtain ⟨rfl, rfl⟩ := by simpa [finishEvent] using step
      have unheard : s.sync.isAnnounced uri = false := by simpa using unknown
      exact .passed _ c current unheard
  | saved uri text =>
    simp only [beginEvent] at step
    split at step
    · rename_i announced
      -- what waits goes out ahead of the save
      rcases flush_cases covered uri with ⟨none, nothing⟩ | ⟨params, sync, released, told⟩
      · obtain ⟨rfl, rfl⟩ := by simpa [none] using step
        refine .regarded _ c current announced fun uri' text' same => ?_
        obtain ⟨rfl, -⟩ := DocumentEvent.saved.inj same
        exact nothing
      · obtain ⟨rfl, rfl⟩ := by simpa [released] using step
        exact .flushed (.saved uri text) c _ params sync (Or.inl ⟨rfl, current, announced⟩) told
    · rename_i unknown
      obtain ⟨rfl, rfl⟩ := by simpa [finishEvent] using step
      have unheard : s.sync.isAnnounced uri = false := by simpa using unknown
      exact .passed _ c current unheard
  | closed uri =>
    cases announced : s.sync.isAnnounced uri with
    | false =>
      have same := DocumentSync.close_of_not_isAnnounced covered announced
      obtain ⟨rfl, rfl⟩ := by simpa [beginEvent, same, tell, finishEvent] using step
      exact .passed _ c current announced
    | true =>
      have told := DocumentSync.close_of_isAnnounced announced
      obtain ⟨rfl, rfl⟩ := by simpa [beginEvent, told, tell] using step
      exact .closed uri c _ _ current (by simp [DocumentSync.step, told])

theorem stepEvent_cases (covered : s.sync.Covered) {e : DocumentEvent} {p p' : EventPhase}
    (step : s.stepEvent now h me e p = some (s', p')) : EventStep now h s me e p s' p' := by
  -- a notice of a coming save, or the flush that goes ahead of it
  have warn : ∀ {uri reason c p}, e = .willSave uri reason →
      (p = .checking c ∨ ∃ language, p = .matching c language) →
      (∀ sync, s.sync.flush uri = (none, sync) →
        ({ s with sync }, EventPhase.writing c (willSaveNotice uri reason)) = (s', p')) →
      (∀ params sync, s.sync.flush uri = (some params, sync) →
        ({ s with sync }, EventPhase.flushing c params) = (s', p')) →
      EventStep now h s me e p s' p' := by
    rintro uri reason c p rfl place nothing something
    rcases flush_cases covered uri with ⟨none, absent⟩ | ⟨params, sync, released, told⟩
    · obtain ⟨rfl, rfl⟩ := by simpa using nothing _ none
      exact .warned uri reason c p place absent
    · obtain ⟨rfl, rfl⟩ := by simpa using something params sync released
      exact .flushed (.willSave uri reason) c p params sync (Or.inr place) told
  -- a notice of a save
  have told : ∀ {uri text text' c p}, e = .saved uri text →
      (p = .checking c ∧ (text' = none ∨ text' = text) ∨
        p = .naming c ∧ text' = (h.document? uri).map (·.text)) →
      s.tellSaved c uri text' = (s', p') → EventStep now h s me e p s' p' := by
    rintro uri text text' c p rfl content step
    have place : p = .checking c ∨ p = .naming c := content.imp (·.1) (·.1)
    cases announced : s.sync.isAnnounced uri with
    | true =>
      obtain ⟨rfl, rfl⟩ := by
        simpa [tellSaved, DocumentSync.save, announced, tell] using step
      exact .saved uri text text' c p place announced content
    | false =>
      obtain ⟨rfl, rfl⟩ := by
        simpa [tellSaved, DocumentSync.save, announced, tell, finishEvent] using step
      refine .left _ c p ?_
      tauto
  cases p with
  | locking =>
    simp only [stepEvent] at step
    split at step
    · simp at step
    · rename_i taken
      have free : s.syncOwner = none := by simpa using taken
      split at step
      · rename_i running
        obtain ⟨rfl, rfl⟩ := by simpa using step
        exact .entered e free running
      · rename_i idle
        obtain ⟨rfl, rfl⟩ := by simpa using step
        exact .dropped e free idle
  | looking =>
    simp only [stepEvent] at step
    split at step
    · rename_i unused
      obtain ⟨rfl, rfl⟩ := by simpa [finishEvent] using step
      exact .stranded e unused
    · rename_i c current
      exact beginEvent_cases covered current (Option.some.inj step)
  | checking c =>
    simp only [stepEvent, Option.some.injEq] at step
    unfold checkEvent at step
    split at step
    · split at step
      · exact warn rfl (Or.inl rfl) (fun sync none => by simpa [none] using step)
          fun params sync released => by simpa [released] using step
      · obtain ⟨rfl, rfl⟩ := by simpa using step
        exact .asked _ c _ _ (Or.inl ⟨rfl, rfl⟩)
    · simp only at step
      split at step
      · obtain ⟨rfl, rfl⟩ := by simpa [finishEvent] using step
        exact .left _ c _ (Or.inl rfl)
      · split at step
        · exact told rfl (Or.inl ⟨rfl, Or.inl rfl⟩) step
        · split at step
          · exact told rfl (Or.inl ⟨rfl, Or.inr rfl⟩) step
          · obtain ⟨rfl, rfl⟩ := by simpa using step
            exact .asked _ c _ _ (Or.inl ⟨rfl, rfl⟩)
    · obtain ⟨rfl, rfl⟩ := by simpa [finishEvent] using step
      exact .left _ c _ (Or.inl rfl)
  | naming c =>
    simp only [stepEvent, Option.some.injEq] at step
    unfold nameEvent at step
    split at step
    · obtain ⟨rfl, rfl⟩ := by simpa using step
      exact .asked _ c _ _ (Or.inr ⟨rfl, _, rfl⟩)
    · exact told rfl (Or.inr ⟨rfl, rfl⟩) step
    · obtain ⟨rfl, rfl⟩ := by simpa [finishEvent] using step
      exact .left _ c _ (Or.inr (Or.inl rfl))
  | matching c language =>
    simp only [stepEvent, Option.some.injEq] at step
    unfold matchEvent at step
    split at step
    · split at step
      · exact warn rfl (Or.inr ⟨language, rfl⟩) (fun sync none => by simpa [none] using step)
          fun params sync released => by simpa [released] using step
      · obtain ⟨rfl, rfl⟩ := by simpa [finishEvent] using step
        exact .left _ c _ (Or.inr (Or.inr ⟨language, rfl⟩))
    · obtain ⟨rfl, rfl⟩ := by simpa [finishEvent] using step
      exact .left _ c _ (Or.inr (Or.inr ⟨language, rfl⟩))
  | flushing c params =>
    simp only [stepEvent] at step
    split at step
    · simp at step
    rcases s.notify_cases c (notice "textDocument/didChange" params) with
      ⟨can, wrote⟩ | ⟨cannot, error, failed⟩
    · simp only [wrote, Option.some.injEq] at step
      refine .ahead e c params s' p' can ?_
      unfold afterFlush at step
      split at step
      · obtain ⟨rfl, rfl⟩ := by simpa using step
        exact Or.inl ⟨_, _, rfl, rfl, rfl⟩
      · obtain ⟨rfl, rfl⟩ := by simpa using step
        exact Or.inr (Or.inl ⟨_, _, rfl, rfl, rfl⟩)
      · obtain ⟨rfl, rfl⟩ := by simpa [finishEvent] using step
        exact Or.inr (Or.inr ⟨rfl, rfl⟩)
    · simp only [failed] at step
      obtain ⟨rfl, rfl⟩ := by simpa [finishEvent] using step
      exact .failed e c _ error (Or.inl ⟨params, rfl⟩) cannot
  | writing c n =>
    simp only [stepEvent] at step
    split at step
    · simp at step
    rcases s.notify_cases c n with ⟨can, wrote⟩ | ⟨cannot, error, failed⟩
    · simp only [wrote] at step
      obtain ⟨rfl, rfl⟩ := by simpa [finishEvent] using step
      exact .wrote e c n can
    · simp only [failed] at step
      obtain ⟨rfl, rfl⟩ := by simpa [finishEvent] using step
      exact .failed e c _ error (Or.inr ⟨n, rfl⟩) cannot
  | ended result => simp [stepEvent] at step

/-! ## Staged changes -/

inductive DeliveryStep (now : Nat) (s : Session) (me : Nat) (uri : String)
    (generation deadline : Nat) : DeliveryPhase → Session → DeliveryPhase → Prop where
  | lapsed (gone : generation ∈ s.sync.lapsed) :
      DeliveryStep now s me uri generation deadline .waiting s .ended
  | due (kept : generation ∉ s.sync.lapsed) (late : deadline ≤ now) :
      DeliveryStep now s me uri generation deadline .waiting s .locking
  | missed (free : s.syncOwner = none)
      (gone : s.sync.step (.takeStaged uri generation) = (.released none, s.sync)) :
      DeliveryStep now s me uri generation deadline .locking s .ended
  | lost (params : DidChangeParams) (sync : DocumentSync) (free : s.syncOwner = none)
      (idle : s.state ≠ .running)
      (taken : s.sync.step (.takeStaged uri generation) = (.released (some params), sync)) :
      DeliveryStep now s me uri generation deadline .locking { s with sync } .ended
  | taken (params : DidChangeParams) (sync : DocumentSync) (free : s.syncOwner = none)
      (running : s.state = .running)
      (taken : s.sync.step (.takeStaged uri generation) = (.released (some params), sync)) :
      DeliveryStep now s me uri generation deadline .locking ({ s with sync }.lockSync me)
        (.looking params)
  | stranded (params : DidChangeParams) (unused : s.current = none) :
      DeliveryStep now s me uri generation deadline (.looking params) s.unlockSync .ended
  | found (c : Nat) (params : DidChangeParams) (current : s.current = some c) :
      DeliveryStep now s me uri generation deadline (.looking params) s (.writing c params)
  | wrote (c : Nat) (params : DidChangeParams) (can : (s.connection c).canWrite = true) :
      DeliveryStep now s me uri generation deadline (.writing c params)
        (s.writes c (.notification (notice "textDocument/didChange" params))).unlockSync .ended
  | failed (c : Nat) (params : DidChangeParams) (cannot : (s.connection c).canWrite = false) :
      DeliveryStep now s me uri generation deadline (.writing c params)
        s.unlockSync .ended

theorem stepDelivery_cases (covered : s.sync.Covered) {uri : String} {generation deadline : Nat}
    {p p' : DeliveryPhase} (step : s.stepDelivery now me uri generation deadline p = some (s', p')) :
    DeliveryStep now s me uri generation deadline p s' p' := by
  cases p with
  | waiting =>
    simp only [stepDelivery] at step
    split at step
    · rename_i gone
      obtain ⟨rfl, rfl⟩ := by simpa using step
      exact .lapsed (by simpa using gone)
    · rename_i kept
      split at step
      · rename_i late
        obtain ⟨rfl, rfl⟩ := by simpa using step
        exact .due (by simpa using kept) late
      · simp at step
  | locking =>
    simp only [stepDelivery] at step
    split at step
    · simp at step
    · rename_i held
      have free : s.syncOwner = none := by simpa using held
      have op : s.sync.step (.takeStaged uri generation) =
        (.released (s.sync.takeStaged uri generation).1, (s.sync.takeStaged uri generation).2) := rfl
      split at step
      -- the token has lapsed, so that the change is somebody else's to tell
      · rename_i sync gone
        have effect := DocumentSync.step_transition covered (.takeStaged uri generation)
        rw [op, gone] at effect
        obtain ⟨rfl, rfl⟩ := by simpa using step
        cases effect with
        | releasePassed => exact .missed free (by rw [op, gone])
      -- the change is taken; whether it is told depends on the session still running
      · rename_i params sync taken
        split at step
        · rename_i running
          obtain ⟨rfl, rfl⟩ := by simpa using step
          exact .taken params sync free running (by rw [op, taken])
        · rename_i idle
          obtain ⟨rfl, rfl⟩ := by simpa using step
          exact .lost params sync free idle (by rw [op, taken])
  | looking params =>
    simp only [stepDelivery] at step
    split at step
    · rename_i unused
      obtain ⟨rfl, rfl⟩ := by simpa using step
      exact .stranded params unused
    · rename_i c current
      obtain ⟨rfl, rfl⟩ := by simpa using step
      exact .found c params current
  | writing c params =>
    simp only [stepDelivery] at step
    split at step
    · simp at step
    rcases (s.connection c).tryWrite_cases
      (.notification (notice "textDocument/didChange" params)) with ⟨can, wrote⟩ | ⟨cannot, failed⟩
    · obtain ⟨rfl, rfl⟩ := by simpa [onConnection, wrote] using step
      exact .wrote c params can
    · obtain ⟨rfl, rfl⟩ := by simpa [onConnection, failed] using step
      exact .failed c params cannot
  | ended => simp [stepDelivery] at step

/-! ## Questions for edits -/

/-- Whether a question comes before a save. -/
def isBeforeSave : EditQuery → Bool
  | .beforeSave .. => true
  | .layout .. => false

/-- The request of a question. -/
def queryCall (q : EditQuery) : Call :=
  { method := q.method, params := some q.params }

/-- What a question does when the server answers it: a staged change goes ahead, or the request
    begins. -/
inductive FlushedOrAsked (now : Nat) (s : Session) (c : Nat) (q : EditQuery) :
    Session → QueryPhase → Prop where
  | flushed (params : DidChangeParams) (sync : DocumentSync)
      (told : s.sync.step (.flush q.uri) = (.released (some params), sync)) :
      FlushedOrAsked now s c q { s with sync } (.flushing c params)
  | asked (s₁ : Session) (call : Call) (nothing : s.sync.staged.get? q.uri = none)
      (begun : Called now s.unlockSync c (queryCall q) s₁ call) :
      FlushedOrAsked now s c q s₁ (.calling c call)

theorem flushAndAsk_cases (covered : s.sync.Covered) {c : Nat} {q : EditQuery} {p : QueryPhase}
    (step : s.flushAndAsk now c q = (s', p)) : FlushedOrAsked now s c q s' p := by
  rcases flush_cases covered q.uri with ⟨none, nothing⟩ | ⟨params, sync, released, told⟩
  · obtain ⟨rfl, rfl⟩ := by simpa [flushAndAsk, none, ask] using step
    exact .asked _ _ nothing (beginCall_cases now s.unlockSync c rfl)
  · obtain ⟨rfl, rfl⟩ := by simpa [flushAndAsk, released] using step
    exact .flushed params sync told

/-- What a step of a question can do.  A question about a layout takes the lock only when the server
    answers it; one before a save takes it first, and so knows a connection from then on. -/
inductive QueryStep (now : Nat) (h : Host) (s : Session) (me : Nat) (q : EditQuery) :
    QueryPhase → Session → QueryPhase → Prop where
  | began (p : QueryPhase)
      (next : p = .locking ∨ isBeforeSave q = false ∧ p = .checking none ∨
        ∃ result, p = .ended result) :
      QueryStep now h s me q .entering s p
  | declined (result : Except ClientError (Option (List TextEdit))) (free : s.syncOwner = none)
      (idle : s.state ≠ .running) : QueryStep now h s me q .locking s (.ended result)
  | entered (free : s.syncOwner = none) (running : s.state = .running) :
      QueryStep now h s me q .locking (s.lockSync me) .looking
  | regarded (c : Nat) (current : s.current = some c) (before : isBeforeSave q = true) :
      QueryStep now h s me q .looking s (.checking (some c))
  | asked (c : Option Nat) (p p' : QueryPhase)
      (place : p = .checking c ∧ p' = .naming c ∨
        p = .naming c ∧ ∃ language, p' = .matching c language) :
      QueryStep now h s me q p s p'
  | agreed (p : QueryPhase)
      (place : p = .checking none ∨ ∃ language, p = .matching none language) :
      QueryStep now h s me q p s .locking
  | ahead (c : Nat) (p : QueryPhase) (s₁ : Session) (p' : QueryPhase)
      (place : p = .looking ∧ s.current = some c ∨ p = .checking (some c) ∨
        ∃ language, p = .matching (some c) language)
      (next : FlushedOrAsked now s c q s₁ p') :
      QueryStep now h s me q p s₁ p'
  | left (p : QueryPhase) (result : Except ClientError (Option (List TextEdit)))
      (place : p = .looking ∨ isBeforeSave q = true ∧ ∃ c language, p = .matching c language) :
      QueryStep now h s me q p s.unlockSync (.ended result)
  | unasked (c : Option Nat) (language : String) (layout : isBeforeSave q = false) :
      QueryStep now h s me q (.matching c language) s (.ended (.ok none))
  | wrote (c : Nat) (params : DidChangeParams) (s₁ : Session) (call : Call)
      (can : (s.connection c).canWrite = true)
      (begun : Called now
        (s.writes c (.notification (notice "textDocument/didChange" params))).unlockSync c
        (queryCall q) s₁ call) :
      QueryStep now h s me q (.flushing c params) s₁ (.calling c call)
  | failed (c : Nat) (params : DidChangeParams) (e : ClientError)
      (cannot : (s.connection c).canWrite = false) :
      QueryStep now h s me q (.flushing c params) s.unlockSync (.ended (.error e))
  | called (c : Nat) (call : Call) (s₁ : Session) (call' : Call) (unanswered : call.result? = none)
      (step : Called now s c call s₁ call') :
      QueryStep now h s me q (.calling c call) s₁ (.calling c call')
  | answered (c : Nat) (call : Call) (result : Except ClientError Json)
      (past : call.result? = some result) :
      QueryStep now h s me q (.calling c call) s (.ended (editsOf result))

theorem stepQuery_cases (covered : s.sync.Covered) {q : EditQuery} {p p' : QueryPhase}
    (step : s.stepQuery now h me q p = some (s', p')) : QueryStep now h s me q p s' p' := by
  -- what follows when the server answers the question
  have go : ∀ {c}, (p = .checking c ∨ ∃ language, p = .matching c language) →
      s.goAhead now q c = (s', p') → QueryStep now h s me q p s' p' := by
    intro c place step
    cases c with
    | none =>
      obtain ⟨rfl, rfl⟩ := by simpa [goAhead] using step
      exact .agreed p place
    | some c => exact .ahead c p s' p' (Or.inr place) (flushAndAsk_cases covered step)
  cases p with
  | entering =>
    simp only [stepQuery] at step
    split at step
    · obtain ⟨rfl, rfl⟩ := by simpa using step
      exact .began _ (Or.inl rfl)
    · split at step
      · obtain ⟨rfl, rfl⟩ := by simpa using step
        exact .began _ (Or.inr (Or.inl ⟨rfl, rfl⟩))
      · obtain ⟨rfl, rfl⟩ := by simpa using step
        exact .began _ (Or.inr (Or.inr ⟨_, rfl⟩))
  | locking =>
    simp only [stepQuery] at step
    split at step
    · simp at step
    · rename_i held
      have free : s.syncOwner = none := by simpa using held
      split at step
      · rename_i running
        obtain ⟨rfl, rfl⟩ := by simpa using step
        exact .entered free running
      · rename_i idle
        split at step
        · obtain ⟨rfl, rfl⟩ := by simpa using step
          exact .declined _ free idle
        · obtain ⟨rfl, rfl⟩ := by simpa using step
          exact .declined _ free idle
  | looking =>
    simp only [stepQuery] at step
    split at step
    · rename_i uri reason c current
      split at step
      · obtain ⟨rfl, rfl⟩ := by simpa using step
        exact .regarded c current rfl
      · obtain ⟨rfl, rfl⟩ := by simpa [giveUp, finishQuery] using step
        exact .left _ _ (Or.inl rfl)
    · obtain ⟨rfl, rfl⟩ := by simpa [giveUp, finishQuery] using step
      exact .left _ _ (Or.inl rfl)
    · rename_i uri options c current
      exact .ahead c _ s' p' (Or.inl ⟨rfl, current⟩)
        (flushAndAsk_cases covered (Option.some.inj step))
    · obtain ⟨rfl, rfl⟩ := by simpa [finishQuery] using step
      exact .left _ _ (Or.inl rfl)
  | checking c =>
    simp only [stepQuery] at step
    split at step
    · exact go (Or.inl rfl) (Option.some.inj step)
    · obtain ⟨rfl, rfl⟩ := by simpa using step
      exact .asked c _ _ (Or.inl ⟨rfl, rfl⟩)
  | naming c =>
    obtain ⟨rfl, rfl⟩ := by simpa [stepQuery] using step
    exact .asked c _ _ (Or.inr ⟨rfl, _, rfl⟩)
  | matching c language =>
    simp only [stepQuery] at step
    split at step
    · exact go (Or.inr ⟨language, rfl⟩) (Option.some.inj step)
    · cases q with
      | beforeSave uri reason =>
        obtain ⟨rfl, rfl⟩ := by simpa [giveUp, finishQuery] using step
        exact .left _ _ (Or.inr ⟨rfl, c, language, rfl⟩)
      | layout uri options =>
        obtain ⟨rfl, rfl⟩ := by simpa [giveUp] using step
        exact .unasked c language rfl
  | flushing c params =>
    simp only [stepQuery] at step
    split at step
    · simp at step
    rcases s.notify_cases c (notice "textDocument/didChange" params) with
      ⟨can, wrote⟩ | ⟨cannot, e, failed⟩
    · simp only [wrote, Option.some.injEq, ask, Prod.mk.injEq] at step
      obtain ⟨rfl, rfl⟩ := step
      exact .wrote c params _ _ can (beginCall_cases now _ c rfl)
    · simp only [failed] at step
      obtain ⟨rfl, rfl⟩ := by simpa [finishQuery] using step
      exact .failed c params e cannot
  | calling c call =>
    simp only [stepQuery] at step
    split at step
    · rename_i result past
      obtain ⟨rfl, rfl⟩ := by simpa using step
      exact .answered c call result past
    · rename_i unanswered
      obtain ⟨⟨s₁, call'⟩, stepped, same⟩ := Option.map_eq_some_iff.mp step
      obtain ⟨rfl, rfl⟩ := by simpa using same
      exact .called c call s₁ call' unanswered (stepCall_cases stepped)
  | ended result => simp [stepQuery] at step

/-! ## Requests of the user -/

inductive RequestStep (now : Nat) (s : Session) (method : String) (params : Option Json)
    (cancelled : Bool) : RequestPhase → Session → RequestPhase → Prop where
  | began (running : s.state = .running) : RequestStep now s method params cancelled .entering s .looking
  | declined (p : RequestPhase) (place : p = .entering ∨ p = .looking) :
      RequestStep now s method params cancelled p s (.ended (.error s.invalidState))
  | asked (c : Nat) (s₁ : Session) (call : Call) (current : s.current = some c)
      (begun : Called now s c { method, params, cancelled } s₁ call) :
      RequestStep now s method params cancelled .looking s₁ (.calling c call)
  | called (c : Nat) (call : Call) (s₁ : Session) (call' : Call) (unanswered : call.result? = none)
      (step : Called now s c { call with cancelled } s₁ call') :
      RequestStep now s method params cancelled (.calling c call) s₁ (.calling c call')
  | answered (c : Nat) (call : Call) (result : Except ClientError Json)
      (past : call.result? = some result) :
      RequestStep now s method params cancelled (.calling c call) s (.ended result)

theorem stepRequest_cases {method : String} {params : Option Json} {cancelled : Bool}
    {p p' : RequestPhase} (step : s.stepRequest now method params cancelled p = some (s', p')) :
    RequestStep now s method params cancelled p s' p' := by
  cases p with
  | entering =>
    simp only [stepRequest] at step
    split at step
    · rename_i running
      obtain ⟨rfl, rfl⟩ := by simpa using step
      exact .began running
    · obtain ⟨rfl, rfl⟩ := by simpa using step
      exact .declined _ (Or.inl rfl)
  | looking =>
    simp only [stepRequest] at step
    split at step
    · obtain ⟨rfl, rfl⟩ := by simpa using step
      exact .declined _ (Or.inr rfl)
    · rename_i c current
      obtain ⟨rfl, rfl⟩ := by simpa using step
      exact .asked c _ _ current (beginCall_cases now s c rfl)
  | calling c call =>
    simp only [stepRequest] at step
    split at step
    · rename_i result past
      obtain ⟨rfl, rfl⟩ := by simpa using step
      exact .answered c call result past
    · rename_i unanswered
      obtain ⟨⟨s₁, call'⟩, stepped, same⟩ := Option.map_eq_some_iff.mp step
      obtain ⟨rfl, rfl⟩ := by simpa using same
      exact .called c call s₁ call' unanswered (stepCall_cases stepped)
  | ended result => simp [stepRequest] at step

end LanguageClient.Session
