import LanguageClient.Proofs.Session.Feature
/-!
# Calls for features come to an end

A call for a feature takes ten steps at most until its message is written, or it is settled that none
will be (`Feature.left`).  Each step brings it nearer (`left_of_step`), and nothing keeps it from taking
one but the lock on the documents and a writer that is held up (`exists_step`).
-/

namespace LanguageClient

namespace Feature

variable {now : Nat} {h h' : Host} {s s' : Session} {t c : Nat} {task task' : Task} {q : EditQuery}
  {f : Feature} {stage : Stage}

/-- How many steps an event takes at most until its message is written. -/
def eventLeft : EventPhase → Nat
  | .locking => 7
  | .looking => 6
  | .checking _ => 5
  | .naming _ => 4
  | .matching .. => 3
  | .flushing .. => 2
  | .writing .. => 1
  | .ended _ => 0

/-- How many steps a question takes at most until its request is written. -/
def queryLeft (before : Bool) : QueryPhase → Nat
  | .entering => 10
  -- A question before a save takes the lock first; one for a layout only when the server wants it.
  | .locking => if before then 9 else 6
  | .looking => if before then 8 else 5
  | .checking _ => if before then 7 else 9
  | .naming _ => if before then 6 else 8
  | .matching .. => if before then 5 else 7
  | .flushing .. => 4
  | .calling _ call =>
    match call.phase with
    | .entering => 3
    | .admitted _ => 2
    | .registered _ => 1
    | _ => 0
  | .ended _ => 0

def left : Task → Nat
  | .event _ p => eventLeft p
  | .query q p => queryLeft (Session.isBeforeSave q) p
  | _ => 0

/-- A call has yet to take the lock on the documents. -/
def Locks : Task → Prop
  | .event _ .locking | .query _ .entering | .query _ .locking => True
  | .query _ (.checking none) | .query _ (.naming none) | .query _ (.matching none _) => True
  | _ => False

theorem left_eq_zero_iff (calls : f.At task stage) : left task = 0 ↔ stage = .past := by
  cases calls with
  | warning uri reason p warns => cases p <;> simp [left, eventLeft, eventStage]
  | question q p fits =>
    cases p with
    | calling c call => cases place : call.phase <;> simp [left, queryLeft, queryStage, place]
    | locking | looking | checking | naming | matching =>
      cases before : Session.isBeforeSave q <;> simp [left, queryLeft, queryStage, before]
    | _ => simp [left, queryLeft, queryStage]

theorem left_le (task : Task) : left task ≤ 10 := by
  cases task with
  | event e p => cases p <;> simp [left, eventLeft]
  | query q p =>
    cases p with
    | calling c call => cases place : call.phase <;> simp [left, queryLeft, place]
    | locking | looking | checking | naming | matching =>
      cases before : Session.isBeforeSave q <;> simp [left, queryLeft, before]
    | _ => simp [left, queryLeft]
  | _ => exact Nat.zero_le _

theorem left_of_called {call call' : Call} {before : Bool}
    (step : Session.Called now s c call s' call') :
    queryLeft before (.calling c call') ≤ queryLeft before (.calling c call) - 1 := by
  cases step with
  | step connection phase step =>
    cases step with
    | refused e fresh | numbered fresh => simp [queryLeft, fresh]
    | turnedAway id place | registered id place | written id _ place | unwritten id _ place
    | answered id _ _ place | gaveUp id _ _ place | withdrawn id _ place | forgotten id _ place
    | late id _ place | notified id _ place => simp [queryLeft, place]

theorem left_of_eventStep {uri : String} {reason : SaveReason} {p p' : EventPhase}
    (step : Session.EventStep now h s t (.willSave uri reason) p s' p') :
    eventLeft p' ≤ eventLeft p - 1 := by
  cases step with
  | regarded | entered => exact Nat.le_refl _
  | flushed _ c _ params sync place told =>
    rcases place with ⟨rfl, -⟩ | rfl | ⟨language, rfl⟩ <;> simp [eventLeft]
  | asked _ c _ _ place =>
    rcases place with ⟨rfl, rfl⟩ | ⟨rfl, language, rfl⟩ <;> simp [eventLeft]
  | warned _ _ c _ place =>
    rcases place with rfl | ⟨language, rfl⟩ <;> simp [eventLeft]
  | ahead _ c params _ _ can next =>
    rcases next with ⟨uri, reason, -, rfl, -⟩ | ⟨uri, text, other, -⟩ | ⟨rfl, -⟩
    · simp [eventLeft]
    · cases other
    · exact Nat.zero_le _
  | _ => exact Nat.zero_le _

theorem left_of_begun {s₁ : Session} {call : Call} {before : Bool}
    (begun : Session.Called now s₁ c (Session.queryCall q) s' call) :
    queryLeft before (.calling c call) ≤ 2 :=
  left_of_called begun

theorem left_of_queryStep {p p' : QueryPhase} (sound : (Task.query q p).Sound)
    (step : Session.QueryStep now h s t q p s' p') :
    queryLeft (Session.isBeforeSave q) p' ≤ queryLeft (Session.isBeforeSave q) p - 1 := by
  cases step with
  | began _ next =>
    rcases next with rfl | ⟨layout, rfl⟩ | ⟨result, rfl⟩
    · simp only [queryLeft]
      split <;> omega
    · simp [queryLeft, layout]
    · exact Nat.zero_le _
  | entered =>
    simp only [queryLeft]
    split <;> omega
  | regarded c current before => simp [queryLeft, before]
  | asked c _ _ place =>
    rcases place with ⟨rfl, rfl⟩ | ⟨rfl, language, rfl⟩ <;>
    · simp only [queryLeft]
      split <;> omega
  | agreed _ place =>
    -- only a question about the layout comes to agree here
    have layout : Session.isBeforeSave q = false := by
      rcases place with rfl | ⟨language, rfl⟩ <;> exact sound.symm
    rcases place with rfl | ⟨language, rfl⟩ <;> simp [queryLeft, layout]
  | ahead c _ _ _ place next =>
    -- before anything is asked there are at least five steps left
    have many : 5 ≤ queryLeft (Session.isBeforeSave q) p := by
      rcases place with ⟨rfl, -⟩ | rfl | ⟨language, rfl⟩ <;>
      · simp only [queryLeft]
        split <;> omega
    cases next with
    | flushed params sync told => exact Nat.le_sub_one_of_lt many
    | asked _ call nothing begun =>
      have few : queryLeft (Session.isBeforeSave q) (.calling c call) ≤ 2 := left_of_begun begun
      omega
  | wrote c params _ call can begun =>
    exact Nat.le_succ_of_le (left_of_begun begun)
  | called c call _ call' unanswered step => exact left_of_called step
  | _ => exact Nat.zero_le _

/-- A call comes nearer to its message with every step. -/
theorem left_of_step (calls : f.At task stage) (sound : task.Sound)
    (step : Session.TaskStep now h s t task h' s' task') : left task' ≤ left task - 1 := by
  cases calls with
  | warning uri reason p warns =>
    cases step with
    | event _ _ _ _ step => exact left_of_eventStep step
  | question q p fits =>
    cases step with
    | query _ _ _ _ step => exact left_of_queryStep sound step

theorem state_of_step (calls : f.At task stage)
    (step : Session.TaskStep now h s t task h' s' task') : s'.state = s.state := by
  cases calls with
  | warning uri reason p warns =>
    cases step with
    | event _ _ _ _ step => exact step.state
  | question q p fits =>
    cases step with
    | query _ _ _ _ step => exact step.state

/-- A call that has yet to take the lock leaves it as it is. -/
theorem locks_of_step (step : Session.TaskStep now h s t task h' s' task') (locks : Locks task') :
    Locks task ∧ s'.syncOwner = s.syncOwner := by
  cases step with
  | event e p _ p' step =>
    cases step with
    | asked _ c _ _ place =>
      rcases place with ⟨rfl, rfl⟩ | ⟨rfl, language, rfl⟩ <;> exact locks.elim
    | ahead _ c params _ _ can next =>
      rcases next with ⟨uri, reason, -, rfl, -⟩ | ⟨uri, text, -, rfl, -⟩ | ⟨rfl, -⟩ <;>
        exact locks.elim
    | _ => exact locks.elim
  | query q p _ p' step =>
    cases step with
    | began => exact ⟨trivial, rfl⟩
    | asked c _ _ place =>
      rcases place with ⟨rfl, rfl⟩ | ⟨rfl, language, rfl⟩
      · cases c <;> exact ⟨locks, rfl⟩
      · cases c <;> exact ⟨locks, rfl⟩
    | agreed _ place => rcases place with rfl | ⟨language, rfl⟩ <;> exact ⟨trivial, rfl⟩
    | ahead c _ _ _ place next => cases next <;> exact locks.elim
    | _ => exact locks.elim
  | _ => exact locks.elim

/-! ## Nothing else is waited for -/

/-- Only a connection that was opened has a writer that can be held up. -/
theorem busy_of_connections (taken : ∀ connection ∈ s.connections, connection.busy = false) (c : Nat) :
    s.busy c = false := by
  unfold Session.busy Session.connection
  cases here : s.connections[c]? with
  | none => rfl
  | some connection => exact taken connection (List.mem_of_getElem? here)

theorem busy_setConnection {connection : Connection} (same : connection.busy = s.busy c) (c' : Nat) :
    (s.setConnection c connection).busy c' = s.busy c' := by
  simp only [Session.busy, Session.connection, Session.setConnection, List.getElem?_set]
  split
  · next here =>
    subst here
    split
    · exact same
    · next outside => simp [List.getElem?_eq_none (Nat.le_of_not_lt outside)]
  · rfl

theorem busy_called {call call' : Call} (step : Session.Called now s c call s' call') (c' : Nat) :
    s'.busy c' = s.busy c' := by
  cases step with
  | step connection phase step => exact busy_setConnection step.busy c'

/-- Whether a writer is held up is up to the server: a call for a feature leaves it as it is. -/
theorem busy_of_step (calls : f.At task stage)
    (step : Session.TaskStep now h s t task h' s' task') (c' : Nat) : s'.busy c' = s.busy c' := by
  have writes : ∀ (c : Nat) (m : Message), (s.writes c m).busy c' = s.busy c' := by
    intro c m
    have wrote : { s.connection c with sent := (s.connection c).sent ++ [m] }.busy = s.busy c := rfl
    exact busy_setConnection wrote c'
  cases calls with
  | warning uri reason p warns =>
    cases step with
    | event _ _ _ _ step =>
      cases step with
      | ahead _ c params _ _ can next =>
        rcases next with ⟨_, _, -, -, rfl⟩ | ⟨_, _, -, -, rfl⟩ | ⟨-, rfl⟩ <;> exact writes c _
      | wrote _ c n => exact writes c _
      | _ => rfl
  | question q p fits =>
    cases step with
    | query _ _ _ _ step =>
      cases step with
      | ahead c _ _ _ place next =>
        cases next with
        | flushed => rfl
        | asked _ call nothing begun => exact busy_called begun c'
      | wrote c params _ call can begun => exact (busy_called begun c').trans (writes c _)
      | called c call _ call' unanswered step => exact busy_called step c'
      | _ => rfl

/-- An event that has not ended waits for nothing but the lock and the writer. -/
theorem exists_stepEvent (now : Nat) (h : Host) (t : Nat) (e : DocumentEvent) {p : EventPhase}
    (free : p = .locking → s.syncOwner = none) (taken : ∀ c, s.busy c = false)
    (more : eventLeft p ≠ 0) :
    ∃ result, s.stepEvent now h t e p = some result := by
  cases p with
  | locking =>
    simp only [Session.stepEvent, free rfl]
    split
    · next taken => cases taken
    · split <;> exact ⟨_, rfl⟩
  | looking =>
    simp only [Session.stepEvent]
    split <;> exact ⟨_, rfl⟩
  | flushing c params | writing c n =>
    simp only [Session.stepEvent, taken c, Bool.false_eq_true, if_false]
    split <;> exact ⟨_, rfl⟩
  | ended result => exact absurd rfl more
  | _ => exact ⟨_, rfl⟩

/-- A question whose request is not written waits for nothing but the lock and the writer. -/
theorem exists_stepQuery (now : Nat) (h : Host) (t : Nat) {p : QueryPhase}
    (free : p = .locking → s.syncOwner = none) (taken : ∀ c, s.busy c = false)
    (more : queryLeft (Session.isBeforeSave q) p ≠ 0) :
    ∃ result, s.stepQuery now h t q p = some result := by
  cases p with
  | entering =>
    simp only [Session.stepQuery]
    split
    · exact ⟨_, rfl⟩
    · split <;> exact ⟨_, rfl⟩
  | locking =>
    simp only [Session.stepQuery, free rfl]
    split
    · next taken => cases taken
    · split
      · exact ⟨_, rfl⟩
      · split <;> exact ⟨_, rfl⟩
  | looking =>
    simp only [Session.stepQuery]
    split
    · split <;> exact ⟨_, rfl⟩
    · exact ⟨_, rfl⟩
    · exact ⟨_, rfl⟩
    · exact ⟨_, rfl⟩
  | checking c | matching c language =>
    simp only [Session.stepQuery]
    split <;> exact ⟨_, rfl⟩
  | naming c => exact ⟨_, rfl⟩
  | flushing c params =>
    simp only [Session.stepQuery, taken c, Bool.false_eq_true, if_false]
    split <;> exact ⟨_, rfl⟩
  | calling c call =>
    -- a call that is not written yet can always go on, for the writer is free
    have goes : ∃ result, call.step now (s.connection c) = some result := by
      have ready : (s.connection c).busy = false := taken c
      unfold Call.step
      cases place : call.phase with
      | entering =>
        simp only
        split
        · exact ⟨_, rfl⟩
        · split <;> exact ⟨_, rfl⟩
      | admitted id | registered id =>
        simp only [ready, Bool.false_eq_true, if_false]
        split <;> exact ⟨_, rfl⟩
      | _ => simp [queryLeft, place] at more
    obtain ⟨result, goes⟩ := goes
    simp only [Session.stepQuery]
    split
    · exact ⟨_, rfl⟩
    · simp [Session.stepCall, goes]
  | ended result => exact absurd rfl more

/-- A call waits for nothing but the lock and the writer until its message is written. -/
theorem exists_step (here : s.tasks[t]? = some task) (calls : f.At task stage)
    (free : Locks task → s.syncOwner = none) (taken : ∀ c, s.busy c = false) (more : left task ≠ 0) :
    ∃ result, s.stepTask now h t = some result := by
  cases calls with
  | warning uri reason p warns =>
    have lock : p = .locking → s.syncOwner = none := by
      rintro rfl
      exact free trivial
    obtain ⟨result, steps⟩ := exists_stepEvent now h t (.willSave uri reason) lock taken more
    simp [Session.stepTask, here, steps]
  | question q p fits =>
    have lock : p = .locking → s.syncOwner = none := by
      rintro rfl
      exact free trivial
    obtain ⟨result, steps⟩ := exists_stepQuery now h t lock taken more
    simp [Session.stepTask, here, steps]

end Feature

end LanguageClient
