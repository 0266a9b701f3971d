import LanguageClient.Proofs.Host.Records
import LanguageClient.Proofs.Session.Scene
/-!
# A session and its host

What a session takes from its host, and what it leaves there.  No step looks at the record of the host:
with another record, it does the same (`Session.step_unrecorded`).  And a step changes nothing but the
record and the answers of the user (`Session.step_lasting`); all else is the editor's.
-/

namespace LanguageClient

namespace Session

variable {now : Nat} {h h' : Host} {s s' : Session} {t c j : Nat} {actor : Actor}

/-- What a step comes to, but for the record of the host. -/
def unrecorded {α : Type} (r : Host × α) : Host × α :=
  (r.1.unrecorded, r.2)

/-! ## The record -/

theorem concludeAttempt_unrecorded (now : Nat) (h : Host) (s : Session) (c attempt : Nat)
    (result : Except ClientError Json) :
    unrecorded (concludeAttempt now h.unrecorded s c attempt result) =
      unrecorded (concludeAttempt now h s c attempt result) := by
  simp only [concludeAttempt]
  split
  · rfl
  · split
    · rfl
    · split
      · rfl
      · split
        · rename_i reason _
          obtain ⟨reply, rest⟩ := h.prompt_unrecorded reason [retryAction]
          simp [unrecorded, reply, rest]
        · rfl

theorem stepStart_unrecorded (now : Nat) (h : Host) (s : Session) (me : Nat) (p : StartPhase) :
    (s.stepStart now h.unrecorded me p).map unrecorded = (s.stepStart now h me p).map unrecorded := by
  cases p with
  | initializing c attempt call =>
    simp only [stepStart]
    split
    · exact congrArg some (concludeAttempt_unrecorded ..)
    · cases s.stepCall now c call with
      | none => rfl
      | some called =>
        simp only [Option.map_some]
        split
        · exact congrArg some (concludeAttempt_unrecorded ..)
        · rfl
  | failing e down =>
    simp only [stepStart]
    cases s.stepTeardown down with
    | none => rfl
    | some torn =>
      simp only [Option.map_some]
      split
      · split
        · split <;> rfl
        · rfl
      · rfl
  -- all other steps do not look at what the host has noted
  | _ =>
    simp only [stepStart]
    repeat' split
    all_goals rfl

theorem stepWatch_unrecorded (h : Host) (s : Session) (c : Nat) (p : WatchPhase) :
    (s.stepWatch h.unrecorded c p).map unrecorded = (s.stepWatch h c p).map unrecorded := by
  cases p with
  | tearing down =>
    simp only [stepWatch]
    cases s.stepTeardown down with
    | none => rfl
    | some torn =>
      simp only [Option.map_some]
      split <;> rfl
  | _ =>
    simp only [stepWatch]
    repeat' split
    all_goals rfl

theorem stepTask_unrecorded (now : Nat) (h : Host) (s : Session) (t : Nat) :
    (s.stepTask now h.unrecorded t).map unrecorded = (s.stepTask now h t).map unrecorded := by
  unfold stepTask
  cases s.tasks[t]? with
  | none => rfl
  | some task =>
    simp only [Option.bind_eq_bind, Option.bind_some]
    cases task with
    | start p =>
      have same := congrArg (Option.map fun r => (r.1, r.2.1.setTask t (.start r.2.2)))
        (stepStart_unrecorded now h s t p)
      simpa [Option.map_map, Function.comp_def, unrecorded] using same
    | watch c p =>
      have same := congrArg (Option.map fun r => (r.1, r.2.1.setTask t (.watch c r.2.2)))
        (stepWatch_unrecorded h s c p)
      simpa [Option.map_map, Function.comp_def, unrecorded] using same
    | _ =>
      simp only [Option.map_map]
      rfl

theorem beginHandler_unrecorded (h : Host) (s : Session) (c j : Nat) (r : Request) :
    unrecorded (s.beginHandler h.unrecorded c j r) = unrecorded (s.beginHandler h c j r) := by
  unfold beginHandler
  split <;> try rfl
  obtain ⟨reply, rest⟩ := h.prompt_unrecorded (readQuestion r.params).1 (readQuestion r.params).2
  simp [unrecorded, reply, rest]

theorem stepHandler_unrecorded (h : Host) (s : Session) (c j : Nat) :
    (s.stepHandler h.unrecorded c j).map unrecorded = (s.stepHandler h c j).map unrecorded := by
  simp only [stepHandler, Option.bind_eq_bind]
  cases (s.connection c).jobs[j]? with
  | none => rfl
  | some job =>
    simp only [Option.bind_some]
    cases (guard (job.phase = .running) : Option Unit) with
    | none => rfl
    | some =>
      simp only [Option.bind_some]
      split
      · exact congrArg some (s.beginHandler_unrecorded h c j job.request)
      · rename_i p _
        have same : s.continueHandler h.unrecorded c j ((s.connection c).jobCancelled job) p =
            s.continueHandler h c j ((s.connection c).jobCancelled job) p := rfl
        rw [same]
        cases s.continueHandler h c j ((s.connection c).jobCancelled job) p <;> rfl

theorem stepNotification_unrecorded (h : Host) (s : Session) (c : Nat) (n : Notification) :
    unrecorded (s.stepNotification h.unrecorded c n) = unrecorded (s.stepNotification h c n) := by
  unfold stepNotification logMessage
  repeat' split
  all_goals rfl

/-- **No session looks at the record of its host.** -/
theorem step_unrecorded (now : Nat) (h : Host) (s : Session) (actor : Actor) :
    (s.step now h.unrecorded actor).map unrecorded = (s.step now h actor).map unrecorded := by
  cases actor with
  | task t => exact stepTask_unrecorded now h s t
  | reader c =>
    simp only [step]
    split
    · simp only [stepReader]
      split
      · exact congrArg some (s.stepNotification_unrecorded h c _)
      · simp only [Option.map_map]
        rfl
    · rfl
  | readOn c =>
    simp only [step]
    split
    · simp only [Option.map_map]
      rfl
    · rfl
  | job c j =>
    simp only [step, Option.map_map]
    rfl
  | handler c j => exact stepHandler_unrecorded h s c j

/-! ## What lasts -/

theorem Concluded.lasting {attempt : Nat} {result : Except ClientError Json} {p : StartPhase}
    (next : Concluded now h s c attempt result h' s' p) : h'.lasting = h.lasting := by
  cases next with
  | prompted => exact h.lasting_prompt ..
  | _ => rfl

theorem StartStep.lasting {p p' : StartPhase} (step : StartStep now h s t p h' s' p') :
    h'.lasting = h.lasting := by
  cases step with
  | concluded _ _ _ _ _ _ _ _ next => exact next.lasting
  | answered _ _ _ _ _ _ _ _ _ _ _ _ next => exact next.lasting
  | _ => rfl

theorem stepTask_lasting (step : s.stepTask now h t = some (h', s')) : h'.lasting = h.lasting := by
  unfold stepTask at step
  cases here : s.tasks[t]? with
  | none => simp [here] at step
  | some task =>
    simp only [here, Option.bind_eq_bind, Option.bind_some] at step
    cases task with
    | start p =>
      obtain ⟨⟨h₁, s₁, p'⟩, stepped, same⟩ := Option.map_eq_some_iff.mp step
      obtain ⟨rfl, rfl⟩ := Prod.mk.inj same
      exact (stepStart_cases stepped).lasting
    | watch c p =>
      obtain ⟨⟨h₁, s₁, p'⟩, stepped, same⟩ := Option.map_eq_some_iff.mp step
      obtain ⟨rfl, rfl⟩ := Prod.mk.inj same
      cases stepWatch_cases stepped <;> rfl
    | _ =>
      obtain ⟨s₁, -, same⟩ := Option.map_eq_some_iff.mp step
      rw [(Prod.mk.inj same).1]

theorem lasting_beginHandler (h : Host) (s : Session) (c j : Nat) (r : Request) :
    (s.beginHandler h c j r).1.lasting = h.lasting := by
  unfold beginHandler
  split <;> first
    | rfl
    | exact h.lasting_prompt ..

theorem lasting_stepNotification (h : Host) (s : Session) (c : Nat) (n : Notification) :
    (s.stepNotification h c n).1.lasting = h.lasting := by
  unfold stepNotification logMessage
  repeat' split
  all_goals rfl

/-- **A session leaves its host as it is**, but for the record and the answers of the user. -/
theorem step_lasting (step : s.step now h actor = some (h', s')) : h'.lasting = h.lasting := by
  cases actor with
  | task t => exact stepTask_lasting step
  | reader c =>
    simp only [Session.step, stepReader] at step
    split at step
    · split at step
      · rename_i n _
        -- only diagnostics and messages for the user reach the host
        have same : s.stepNotification h c n = (h', s') := Option.some.inj step
        rw [← lasting_stepNotification h s c n, same]
      · obtain ⟨_, -, same⟩ := Option.map_eq_some_iff.mp step
        rw [(Prod.mk.inj same).1]
    · simp at step
  | readOn c =>
    simp only [Session.step] at step
    split at step
    · obtain ⟨_, -, same⟩ := Option.map_eq_some_iff.mp step
      rw [(Prod.mk.inj same).1]
    · simp at step
  | job c j =>
    obtain ⟨_, -, same⟩ := Option.map_eq_some_iff.mp step
    rw [(Prod.mk.inj same).1]
  | handler c j =>
    simp only [Session.step, stepHandler, Option.bind_eq_bind] at step
    obtain ⟨job, -, step⟩ := Option.bind_eq_some_iff.mp step
    obtain ⟨_, -, step⟩ := Option.bind_eq_some_iff.mp step
    split at step
    · have same : s.beginHandler h c j job.request = (h', s') := Option.some.inj step
      rw [← lasting_beginHandler h s c j job.request, same]
    · obtain ⟨s₁, -, same⟩ := Option.bind_eq_some_iff.mp step
      rw [(Prod.mk.inj (Option.some.inj same)).1]

/-- Hosts with different records lead a session the same way. -/
theorem step_congr (same : h'.unrecorded = h.unrecorded) (now : Nat) (s : Session) (actor : Actor) :
    (s.step now h' actor).map unrecorded = (s.step now h actor).map unrecorded := by
  rw [← step_unrecorded, same, step_unrecorded]

end Session

namespace Scene

/-- A move of the editor or of the clock, which is no session's. -/
def Move.isShared : Move → Bool
  | .pass _ | .openDocument _ | .editDocument .. | .closeDocument _ => true
  | _ => false

variable {d d' : Scene} {move : Move}

/-- Two scenes differ only in the records of their hosts. -/
structure SameButRecord (d d' : Scene) : Prop where
  host : d'.host.unrecorded = d.host.unrecorded
  session : d'.session = d.session
  now : d'.now = d.now

/-- Whatever happens, it happens in the same way with different records. -/
theorem SameButRecord.step (same : SameButRecord d d') (move : Move) :
    SameButRecord (d.step move) (d'.step move) := by
  obtain ⟨h, s, now⟩ := d
  obtain ⟨h', s', now'⟩ := d'
  obtain ⟨host, rfl, rfl⟩ := same
  -- two steps with the same result but for the record leave scenes that differ in it only
  have touched : ∀ {r r' : Option (Host × Session)}, r'.map Session.unrecorded = r.map Session.unrecorded →
      SameButRecord (touch ⟨h, s', now'⟩ r) (touch ⟨h', s', now'⟩ r') := by
    intro r r' results
    cases r with
    | none =>
      obtain rfl : r' = none := by simpa using results
      exact ⟨host, rfl, rfl⟩
    | some r =>
      obtain ⟨r', rfl, unrecorded⟩ := Option.map_eq_some_iff.mp results
      obtain ⟨hosts, sessions⟩ := Prod.mk.inj unrecorded
      exact ⟨hosts, sessions, rfl⟩
  cases move with
  | act actor => exact touched (Session.step_congr host now' s' actor)
  | finishFiles c j =>
    refine touched ?_
    have same : s'.finishFiles h' c j = s'.finishFiles h c j := by
      -- files are read from what lasts of the host
      have reads : ∀ h : Host, s'.finishFiles h c j = s'.finishFiles h.unrecorded c j := fun _ => rfl
      rw [reads h', host, ← reads h]
    rw [same]
    cases s'.finishFiles h c j with
    | none => rfl
    | some s => exact congrArg some (Prod.ext host rfl)
  | openDocument document => exact ⟨congrArg (Host.open · document) host, rfl, rfl⟩
  | editDocument uri text =>
    refine ⟨?_, rfl, rfl⟩
    simp only [Scene.step]
    rw [← h'.unrecorded_edit, host, h.unrecorded_edit]
  | closeDocument uri => exact ⟨congrArg (fun h : Host => (h.close uri).2) host, rfl, rfl⟩
  | _ => exact ⟨host, rfl, rfl⟩

/-- What is no move of the editor or of the clock changes neither. -/
theorem lasting_step (own : move.isShared = false) :
    (d.step move).host.lasting = d.host.lasting ∧ (d.step move).now = d.now := by
  cases move with
  | act actor =>
    simp only [step]
    cases stepped : d.session.step d.now d.host actor with
    | none => exact ⟨rfl, rfl⟩
    | some r => exact ⟨Session.step_lasting stepped, rfl⟩
  | finishFiles c j =>
    simp only [step]
    cases d.session.finishFiles d.host c j <;> exact ⟨rfl, rfl⟩
  | pass | openDocument | editDocument | closeDocument => simp [Move.isShared] at own
  | _ => exact ⟨rfl, rfl⟩

/-- What the editor and the clock do leaves the session as it is. -/
theorem session_step_shared (shared : move.isShared = true) : (d.step move).session = d.session := by
  cases move <;> first
    | rfl
    | simp [Move.isShared] at shared

/-- What the editor and the clock do has nothing to do with any session. -/
theorem lasting_step_shared (shared : move.isShared = true) (host : d'.host.lasting = d.host.lasting)
    (now : d'.now = d.now) :
    (d'.step move).host.lasting = (d.step move).host.lasting ∧ (d'.step move).now = (d.step move).now := by
  cases move with
  | pass millis => exact ⟨host, congrArg (· + millis) now⟩
  | openDocument document => exact ⟨congrArg (Host.open · document) host, now⟩
  | editDocument uri text =>
    refine ⟨?_, now⟩
    simp only [step]
    rw [d'.host.lasting_edit, host, d.host.lasting_edit]
  | closeDocument uri => exact ⟨congrArg (fun h : Host => (h.close uri).2) host, now⟩
  | _ => simp [Move.isShared] at shared

end Scene

end LanguageClient
