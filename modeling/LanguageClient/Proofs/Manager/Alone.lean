import LanguageClient.Proofs.Manager.Ensemble
import LanguageClient.Proofs.Session.Coalescing
/-!
# Each session as if it were alone

What a session does among others it does under a manager that has no other session.  `Ensemble.alone`
takes from what happens to all sessions what concerns one of them: what is asked of the manager, what
happens to the session itself, what the editor and the clock do, and those steps of the manager that are
for the session.  The manager of the session alone then stands where the manager of all stands, as far as
that session goes (`Mirrors`).
-/

namespace LanguageClient

/-- An errand for a session, as the manager of that session alone does it. -/
def Errand.alone? (i : Nat) (e : Errand) : Option Errand :=
  if e.session = i then some { e with session := 0 } else none

/-- What is left of a task for the manager of one session alone. -/
def ManagerTask.alone (i : Nat) : ManagerTask → ManagerTask
  | .starting errands => .starting (errands.filterMap (·.alone? i))
  | .stopping errands => .stopping (errands.filterMap (·.alone? i))
  | .passOn events waiting errand =>
    .passOn events (waiting.filterMap fun j => if j = i then some 0 else none)
      (errand.bind (·.alone? i))

/-- One of the first numbers is picked. -/
theorem filterMap_range {α : Type} (n i : Nat) (f : Nat → α) :
    (List.range n).filterMap (fun j => if j = i then some (f j) else none) =
      if i < n then [f i] else [] := by
  induction n with
  | zero => rfl
  | succ n ih =>
    rw [List.range_succ, List.filterMap_append, ih]
    by_cases last : n = i
    · subst last
      simp
    · have same : (i < n + 1) ↔ i < n := by omega
      simp [last, same]

namespace Manager

variable {m m' one : Manager} {now i k : Nat} {s : Session} {actor : Actor}

/-! ## One of several sessions -/

/-- The next step of a task of the manager is for a session, or for none. -/
def turnsTo (now : Nat) (m : Manager) (i k : Nat) : Bool :=
  (m.stepManager now k).isSome &&
    match m.tasks[k]? with
    | some (.starting errands) | some (.stopping errands) =>
      (errands.find? fun e => (m.stepSession now e.session (.task e.task)).isSome).any (·.session == i)
    | some (.passOn _ _ (some e)) => e.session == i
    | some (.passOn _ (j :: _) none) => j == i
    | some (.passOn _ [] none) => true
    | none => false

/-- A manager has one session only, and stands where another one stands as far as it goes. -/
structure Mirrors (i : Nat) (m one : Manager) : Prop where
  host : one.host.lasting = m.host.lasting
  session : ∃ s, m.sessions[i]? = some s ∧ one.sessions = [s]
  tasks : one.tasks = m.tasks.map (·.alone i)

namespace Mirrors

theorem decided (mirrors : Mirrors i m one) (answers : List (Option String)) (mode : PromptMode) :
    Mirrors i m { one with host := one.host.decided answers mode } :=
  ⟨mirrors.host, mirrors.session, mirrors.tasks⟩

/-- What does not concern the session changes nothing. -/
theorem of_apart (mirrors : Mirrors i m one) (host : m'.host.lasting = m.host.lasting)
    (session : m'.sessions[i]? = m.sessions[i]?)
    (tasks : m'.tasks.map (·.alone i) = m.tasks.map (·.alone i)) :
    Mirrors i m' one := by
  obtain ⟨s, here, alone⟩ := mirrors.session
  exact ⟨mirrors.host.trans host.symm, ⟨s, session.trans here, alone⟩, mirrors.tasks.trans tasks.symm⟩

theorem task? (mirrors : Mirrors i m one) (t : Nat) : one.task? ⟨0, t⟩ = m.task? ⟨i, t⟩ := by
  obtain ⟨s, here, alone⟩ := mirrors.session
  simp [Manager.task?, here, alone]

theorem nextTask (mirrors : Mirrors i m one) : one.nextTask 0 = m.nextTask i := by
  obtain ⟨s, here, alone⟩ := mirrors.session
  simp [Manager.nextTask, here, alone]

theorem inside (mirrors : Mirrors i m one) : i < m.sessions.length := by
  obtain ⟨s, here, -⟩ := mirrors.session
  exact (List.getElem?_eq_some_iff.mp here).1

theorem stepSession_none (mirrors : Mirrors i m one) (host : one.host.unrecorded = m.host.unrecorded)
    (waits : m.stepSession now i actor = none) : one.stepSession now 0 actor = none := by
  obtain ⟨s, here, alone⟩ := mirrors.session
  have same := Session.step_congr host now s actor
  rw [stepSession_eq here, Option.map_eq_none_iff] at waits
  rw [waits, Option.map_none, Option.map_eq_none_iff] at same
  rw [stepSession_eq (show one.sessions[0]? = some s by simp [alone]), same]
  rfl

theorem stepSession_some (mirrors : Mirrors i m one) (host : one.host.unrecorded = m.host.unrecorded)
    (step : m.stepSession now i actor = some m') :
    ∃ one', one.stepSession now 0 actor = some one' ∧ Mirrors i m' one' := by
  obtain ⟨s, here, alone⟩ := mirrors.session
  -- the step does not depend on what the host has noted
  have same := Session.step_congr host now s actor
  rw [stepSession_eq here] at step
  obtain ⟨r, stepped, rfl⟩ := Option.map_eq_some_iff.mp step
  rw [stepped] at same
  obtain ⟨r', stepped', equal⟩ := Option.map_eq_some_iff.mp same
  obtain ⟨hosts, sessions⟩ := Prod.mk.inj equal
  refine ⟨{ one with host := r'.1, sessions := one.sessions.set 0 r'.2 }, ?_, ?_, ⟨r.2, ?_, ?_⟩, ?_⟩
  · rw [stepSession_eq (show one.sessions[0]? = some s by simp [alone]), stepped']
    rfl
  · exact Host.lasting_of_unrecorded hosts
  · simp [mirrors.inside]
  · simp [alone, sessions]
  · exact mirrors.tasks

theorem spawnEach (mirrors : Mirrors i m one) (task : Task) :
    Mirrors i (m.spawnEach task).1 (one.spawnEach task).1 ∧
    (one.spawnEach task).2 = (m.spawnEach task).2.filterMap (·.alone? i) := by
  -- each manager spawns one task per session, and the one has a single session
  obtain ⟨s, here, alone⟩ := mirrors.session
  obtain ⟨host, tasks, sessions, errands⟩ := m.spawnEach_cases task
  obtain ⟨host', tasks', sessions', errands'⟩ := one.spawnEach_cases task
  refine ⟨⟨?_, ⟨s.spawn task, ?_, ?_⟩, ?_⟩, ?_⟩
  · rw [host, host', mirrors.host]
  · rw [sessions, here]
    rfl
  · refine List.ext_getElem? fun j => ?_
    rw [sessions', alone]
    cases j <;> rfl
  · rw [tasks, tasks', mirrors.tasks]
  · rw [errands, errands', List.filterMap_map, alone]
    have picked : ∀ j, ((·.alone? i) ∘ fun i => (⟨i, m.nextTask i⟩ : Errand)) j =
        if j = i then some (⟨0, m.nextTask j⟩ : Errand) else none := fun j => rfl
    rw [funext picked, filterMap_range, if_pos mirrors.inside, ← mirrors.nextTask]
    rfl

/-- The manager goes on with a task. -/
theorem set (mirrors : Mirrors i m one) {task task' : ManagerTask} (same : task'.alone i = task) :
    Mirrors i { m with tasks := m.tasks.set k task' } { one with tasks := one.tasks.set k task } := by
  refine ⟨mirrors.host, mirrors.session, ?_⟩
  rw [mirrors.tasks, ← same, List.map_set]

/-- The manager goes on with a task in a way that does not concern the session. -/
theorem set_apart (mirrors : Mirrors i m one) {task task' : ManagerTask} (here : m.tasks[k]? = some task)
    (same : task'.alone i = task.alone i) : Mirrors i { m with tasks := m.tasks.set k task' } one := by
  refine mirrors.of_apart rfl rfl (List.ext_getElem? fun n => ?_)
  simp only [List.getElem?_map, List.getElem?_set]
  by_cases which : k = n
  · subst which
    obtain ⟨inside, here⟩ := List.getElem?_eq_some_iff.mp here
    simp [inside, here, same]
  · simp [which]

/-- A step of the manager that is for another session. -/
theorem stepManager_apart (mirrors : Mirrors i m one) (step : m.stepManager now k = some m')
    (apart : m.turnsTo now i k = false) : Mirrors i m' one := by
  -- a step of another session leaves this one, and all its tasks, where they are
  have other : ∀ {e : Errand} {m' : Manager}, e.session ≠ i →
      m.stepSession now e.session (.task e.task) = some m' → Mirrors i m' one := by
    intro e m' other step
    obtain ⟨host, tasks, sessions⟩ := stepSession_cases step
    exact mirrors.of_apart host (sessions i (Ne.symm other)) (by rw [tasks])
  simp only [turnsTo, step, Option.isSome_some, Bool.true_and] at apart
  cases stepManager_cases step with
  | ran task errands before after e _ here which split waits step =>
    refine other (fun same => ?_) step
    -- the errand that goes is the first that can, and it is for another session
    have first : errands.find? (fun e => (m.stepSession now e.session (.task e.task)).isSome) = some e := by
      refine List.find?_eq_some_iff_append.mpr ⟨by simp [step], before, after, split, fun e among => ?_⟩
      simp [waits e among]
    rcases which with rfl | rfl <;> simp [here, first, same] at apart
  | passed event events here => simp [here] at apart
  | handed event events j waiting here =>
    have other : j ≠ i := by simpa [here] using apart
    have same : (ManagerTask.passOn (event :: events) waiting (some ⟨j, m.nextTask j⟩)).alone i =
        (ManagerTask.passOn (event :: events) (j :: waiting) none).alone i := by
      simp [ManagerTask.alone, Errand.alone?, other]
    refine (mirrors.set_apart here same).of_apart rfl ?_ rfl
    simp [spawn, onSession, other]
  | done event events waiting e here ended =>
    have other : e.session ≠ i := by simpa [here] using apart
    exact mirrors.set_apart here (by simp [ManagerTask.alone, Errand.alone?, other])
  | worked event events waiting e _ here more step => exact other (by simpa [here] using apart) step

/-- A step of the manager that is for the session, or for none. -/
theorem stepManager (mirrors : Mirrors i m one) (host : one.host.unrecorded = m.host.unrecorded)
    (step : m.stepManager now k = some m') (turns : m.turnsTo now i k = true) :
    ∃ one', one.stepManager now k = some one' ∧ Mirrors i m' one' := by
  have found : ∀ {task}, m.tasks[k]? = some task → one.tasks[k]? = some (task.alone i) := fun here => by
    rw [mirrors.tasks, List.getElem?_map, here]
    rfl
  simp only [turnsTo, step, Option.isSome_some, Bool.true_and] at turns
  cases stepManager_cases step with
  | ran task errands before after e _ here which split waits step =>
    -- the errand that goes is the first that can, here and, among those left, under the one
    have first : errands.find? (fun e => (m.stepSession now e.session (.task e.task)).isSome) = some e := by
      refine List.find?_eq_some_iff_append.mpr ⟨by simp [step], before, after, split, fun e among => ?_⟩
      simp [waits e among]
    have mine : e.session = i := by rcases which with rfl | rfl <;> simpa [here, first] using turns
    obtain ⟨j, t⟩ := e
    obtain rfl : j = i := mine
    obtain ⟨one', stepped, same⟩ := mirrors.stepSession_some host step
    -- of the errands before it, those for this session cannot go under the one either
    have goes : (errands.filterMap (·.alone? j)).findSome?
        (fun e => one.stepSession now e.session (.task e.task)) = some one' := by
      refine List.findSome?_eq_some_iff.mpr ⟨before.filterMap (·.alone? j), ⟨0, t⟩,
        after.filterMap (·.alone? j), by simp [split, Errand.alone?], stepped, fun e among => ?_⟩
      obtain ⟨e₀, earlier, picked⟩ := List.mem_filterMap.mp among
      obtain ⟨rfl, rfl⟩ : e₀.session = j ∧ { e₀ with session := 0 } = e := by
        simpa [Errand.alone?] using picked
      exact mirrors.stepSession_none host (waits e₀ earlier)
    refine ⟨one', ?_, same⟩
    rcases which with rfl | rfl <;> simpa [Manager.stepManager, found here, ManagerTask.alone] using goes
  | passed event events here =>
    obtain ⟨s, -, alone⟩ := mirrors.session
    refine ⟨_, by simp [Manager.stepManager, found here, ManagerTask.alone]; rfl, mirrors.set ?_⟩
    -- of an event for all sessions, one part is for this session
    have picked := filterMap_range m.sessions.length i fun _ => 0
    rw [if_pos mirrors.inside] at picked
    simp [ManagerTask.alone, picked, alone]
  | handed event events j waiting here =>
    obtain rfl : j = i := by simpa [here] using turns
    obtain ⟨s, session, alone⟩ := mirrors.session
    refine ⟨_, by simp [Manager.stepManager, found here, ManagerTask.alone]; rfl, ?_⟩
    have same : (ManagerTask.passOn (event :: events) waiting (some ⟨j, m.nextTask j⟩)).alone j = .passOn
        (event :: events) (waiting.filterMap fun i => if i = j then some 0 else none)
          (some ⟨0, one.nextTask 0⟩) := by
      simp [ManagerTask.alone, Errand.alone?, mirrors.nextTask]
    refine ⟨mirrors.host, ⟨s.spawn (.event event .locking), ?_, ?_⟩, (mirrors.set same).tasks⟩
    · simp [spawn, onSession, session]
    · simp [spawn, onSession, alone]
  | done event events waiting e here ended =>
    obtain ⟨j, t⟩ := e
    obtain rfl : j = i := by simpa [here] using turns
    -- an errand has ended here when its task has ended there
    have ended' : (one.task? ⟨0, t⟩).any hasEnded = true := by rw [mirrors.task?, ended]
    refine ⟨_, by simp [Manager.stepManager, found here, ManagerTask.alone, Errand.alone?, ended']; rfl,
      mirrors.set ?_⟩
    simp [ManagerTask.alone]
  | worked event events waiting e _ here more step =>
    obtain ⟨j, t⟩ := e
    obtain rfl : j = i := by simpa [here] using turns
    obtain ⟨one', stepped, same⟩ := mirrors.stepSession_some host step
    have more' : (one.task? ⟨0, t⟩).any hasEnded = false := by rw [mirrors.task?, more]
    refine ⟨one', ?_, same⟩
    simp [Manager.stepManager, found here, ManagerTask.alone, Errand.alone?, more', stepped]

end Mirrors

end Manager

namespace Ensemble

variable {d one : Ensemble} {i : Nat}

/-- What there is of a move for a session alone, with the manager of that session alone.  The user answers
    it as he would among the others. -/
def alone (i : Nat) (d : Ensemble) (move : Move) : List Move :=
  let user : Move := .decide d.manager.host.answers d.manager.host.mode
  match move with
  | .startAll => [.startAll]
  | .stopAll => [.stopAll]
  | .passOn events => [.passOn events]
  | .manage k => if d.manager.turnsTo d.now i k then [user, .manage k] else []
  | .session j move =>
    if move.isShared then [.session 0 move] else if j = i then [user, .session 0 move] else []
  | .decide .. => []

/-- One session alone, as far as it goes among others. -/
structure Mirrors (i : Nat) (d one : Ensemble) : Prop where
  manager : Manager.Mirrors i d.manager one.manager
  now : one.now = d.now

/-- The manager takes a step with a task. -/
theorem Mirrors.manage (mirrors : Mirrors i d one) (k : Nat) :
    Mirrors i (d.step (.manage k)) ((alone i d (.manage k)).foldl Ensemble.step one) := by
  simp only [alone, Ensemble.step]
  cases step : d.manager.stepManager d.now k with
  | none =>
    -- a manager that stands still has no turn for anybody
    have idle : d.manager.turnsTo d.now i k = false := by simp [Manager.turnsTo, step]
    simpa [idle] using mirrors
  | some m' =>
    cases turns : d.manager.turnsTo d.now i k with
    | false => exact ⟨mirrors.manager.stepManager_apart step turns, mirrors.now⟩
    | true =>
      obtain ⟨one', stepped, same⟩ := (mirrors.manager.decided d.manager.host.answers
        d.manager.host.mode).stepManager (Host.unrecorded_decided mirrors.manager.host) step turns
      refine ⟨?_, mirrors.now⟩
      simpa [Ensemble.step, mirrors.now, stepped] using same

/-- Something happens to one session, or beside all of them. -/
theorem Mirrors.session (mirrors : Mirrors i d one) (j : Nat) (move : Scene.Move) :
    Mirrors i (d.step (.session j move)) ((alone i d (.session j move)).foldl Ensemble.step one) := by
  obtain ⟨s, here, single⟩ := mirrors.manager.session
  obtain ⟨inside, found⟩ := List.getElem?_eq_some_iff.mp here
  -- the one manager has the session under the number 0
  have alone' : (one.scene 0).session = s := by simp [scene, single]
  cases shared : move.isShared with
  | true =>
    -- what the editor or the clock does is done to both, and leaves every session as it is
    have host : (one.scene 0).host.lasting = (d.scene j).host.lasting := mirrors.manager.host
    obtain ⟨host, now⟩ := Scene.lasting_step_shared shared host mirrors.now
    have kept : (d.scene j).session = (d.manager.sessions[j]?).getD default := rfl
    simp only [alone, shared, if_true, List.foldl_cons, List.foldl_nil, Ensemble.step, put,
      Scene.session_step_shared shared, alone', kept]
    refine ⟨⟨host, ⟨s, ?_, by simp [single]⟩, mirrors.manager.tasks⟩, now⟩
    by_cases mine : j = i
    · subst mine
      simp [inside, found]
    · simp [mine, here]
  | false =>
    by_cases mine : j = i
    · subst mine
      let one' := one.step (.decide d.manager.host.answers d.manager.host.mode)
      -- the two scenes differ in what the host has noted, which no session looks at
      have same : Scene.SameButRecord (d.scene j) (one'.scene 0) :=
        ⟨Host.unrecorded_decided mirrors.manager.host, alone'.trans (by simp [scene, here]), mirrors.now⟩
      have after := same.step move
      simp only [alone, shared, if_true, List.foldl_cons, List.foldl_nil, Bool.false_eq_true, if_false]
      refine ⟨⟨Host.lasting_of_unrecorded after.host, ⟨((d.scene j).step move).session, ?_, ?_⟩,
        mirrors.manager.tasks⟩, after.now⟩
      · simp [Ensemble.step, put, inside]
      · simp [Ensemble.step, put, single, ← after.session, one']
    -- another session moves: only the host and the clock may differ, and they do not
    · obtain ⟨host, now⟩ := Scene.lasting_step (d := d.scene j) shared
      simp only [alone, shared, mine, if_false, List.foldl_nil, Bool.false_eq_true]
      refine ⟨mirrors.manager.of_apart host ?_ rfl, mirrors.now.trans now.symm⟩
      simp [Ensemble.step, put, mine]

/-- What happens is the same for one session alone. -/
theorem Mirrors.step (mirrors : Mirrors i d one) (move : Move) :
    Mirrors i (d.step move) ((alone i d move).foldl Ensemble.step one) := by
  cases move with
  | startAll =>
    obtain ⟨same, errands⟩ := mirrors.manager.spawnEach (.start .locking)
    exact ⟨⟨same.host, same.session, by
      simp [Ensemble.step, alone, Manager.startAll, same.tasks, errands, ManagerTask.alone]⟩, mirrors.now⟩
  | stopAll =>
    obtain ⟨same, errands⟩ := mirrors.manager.spawnEach (.stop .entering)
    exact ⟨⟨same.host, same.session, by
      simp [Ensemble.step, alone, Manager.stopAll, same.tasks, errands, ManagerTask.alone]⟩, mirrors.now⟩
  | passOn events =>
    obtain ⟨s, -, single⟩ := mirrors.manager.session
    -- of what is spawned for all sessions, one task is for this session
    have picked := filterMap_range d.manager.sessions.length i fun _ => 0
    rw [if_pos mirrors.manager.inside] at picked
    exact ⟨⟨mirrors.manager.host, mirrors.manager.session, by
      simp [Ensemble.step, alone, Manager.passOn, mirrors.manager.tasks, ManagerTask.alone, picked, single]⟩,
      mirrors.now⟩
  | manage k => exact mirrors.manage k
  | session j move => exact mirrors.session j move
  | decide answers mode =>
    exact ⟨⟨mirrors.manager.host, mirrors.manager.session, mirrors.manager.tasks⟩, mirrors.now⟩

/-! ## Whole runs -/

/-- What concerns a session of all that comes from outside: what is asked of the manager, what happens to
    the session, and what the editor and the clock do.  Nobody else's steps are counted, nor what the user
    decides. -/
def concerning? (i : Nat) : Move → Option Move
  | .session j move => if move.isShared ∨ j = i then some (.session 0 move) else none
  | .manage _ | .decide .. => none
  | move => some move

/-- What a session has told its server of documents on a connection. -/
def told (d : Ensemble) (i c : Nat) : List Notification :=
  (d.scene i).session.told c

/-- The run of a session alone that goes with a run of all. -/
def aloneRun (host : Host) (sessions : List Session) (i : Nat) (moves : List Move) : List Move :=
  (machine host sessions).recorded (alone i) moves

theorem concerning?_alone (i : Nat) (d : Ensemble) (move : Move) :
    (alone i d move).filterMap (concerning? 0) = (concerning? i move).toList := by
  cases move with
  | manage k =>
    simp only [alone]
    split <;> rfl
  | session j move =>
    cases shared : move.isShared with
    | true => simp [alone, concerning?, shared]
    | false =>
      by_cases mine : j = i
      -- a move of the session itself is the one that concerns it, under its number here
      · have own : concerning? 0 (.session 0 move) = some (.session 0 move) := by simp [concerning?]
        simp only [alone, concerning?, shared, mine, Bool.false_eq_true, if_false, if_true, or_true]
        rw [List.filterMap_cons_none rfl, List.filterMap_cons_some own]
        rfl
      · simp [alone, concerning?, shared, mine]
  | _ => rfl

variable {host : Host} {sessions : List Session} {s : Session}

theorem mirrors_after (names : (sessions.map (·.name)).Nodup) (here : sessions[i]? = some s)
    (moves : List Move) :
    Mirrors i ((machine host sessions).after moves)
      ((machine host [s]).after (aloneRun host sessions i moves)) := by
  refine (machine host sessions).run_induction (fun moves d =>
    Mirrors i d ((machine host [s]).after (aloneRun host sessions i moves))) ?_ ?_ moves
  -- all names differ, so that every session was taken in, and its number is its place
  · have all := Manager.foldl_add sessions { host } (by simpa using names)
    have single := Manager.foldl_add [s] { host } (by simp)
    refine ⟨⟨?_, ⟨s, ?_, ?_⟩, ?_⟩, rfl⟩
    · simp only [machine, aloneRun, Machine.recorded_nil, Machine.after_nil, all, single]
    · simpa [machine, all] using here
    · simp only [machine, aloneRun, Machine.recorded_nil, Machine.after_nil, single, List.nil_append]
    · simp only [machine, aloneRun, Machine.recorded_nil, Machine.after_nil, all, single, List.map_nil]
  · intro moves move mirrors
    have steps := mirrors.step move
    rw [Machine.after_concat, step_machine, aloneRun, Machine.recorded_concat]
    simpa [Machine.after, List.foldl_append, aloneRun] using steps

/-- **Sessions do not interfere.**  Whatever happens to a manager with several sessions of different
    names, each of its sessions does what it does under a manager that has no other session, when the same
    happens to that one, as far as it concerns the session: the same events are passed on in the same
    order, the editor has the same documents, the same octets come in, and time passes alike.  The session
    is then in the same state, with the same bookkeeping of documents, and its server was told the same;
    and the same events are still to be passed on. -/
theorem sessions_do_not_interfere (host : Host) (sessions : List Session) (i : Nat) (s : Session)
    (names : (sessions.map (·.name)).Nodup) (here : sessions[i]? = some s) (moves : List Move) :
    let d := (machine host sessions).after moves
    let own := aloneRun host sessions i moves
    let one := (machine host [s]).after own
    own.filterMap (concerning? 0) = moves.filterMap (concerning? i) ∧
    one.manager.sessions[0]? = d.manager.sessions[i]? ∧
    (∀ c, one.told 0 c = d.told i c) ∧
    (one.manager.sessions[0]?).map (·.sync) = (d.manager.sessions[i]?).map (·.sync) ∧
    one.manager.host.documents = d.manager.host.documents ∧
    one.manager.tasks = d.manager.tasks.map (·.alone i) := by
  intro d own one
  -- the run of the one manager mirrors the run of all
  have mirrors : Mirrors i d one := mirrors_after names here moves
  obtain ⟨s', here', single⟩ := mirrors.manager.session
  have same : one.manager.sessions[0]? = d.manager.sessions[i]? := by rw [here', single]; rfl
  refine ⟨?_, same, fun c => by simp [told, scene, same], by rw [same],
    Host.documents_of_lasting mirrors.manager.host, mirrors.manager.tasks⟩
  refine (machine host sessions).run_induction (fun moves _ =>
    (aloneRun host sessions i moves).filterMap (concerning? 0) = moves.filterMap (concerning? i)) rfl ?_ moves
  intro moves move ih
  -- along the run: one move may concern the session once at most
  have last : [move].filterMap (concerning? i) = (concerning? i move).toList := by
    cases concerns : concerning? i move <;> simp [concerns]
  rw [aloneRun, Machine.recorded_concat, List.filterMap_append, List.filterMap_append,
    concerning?_alone, last]
  exact congrArg (· ++ _) ih

/-- A server that nobody starts, and one that runs. -/
def idleAndRunning : List Session :=
  let idle : ServerConfig := { name := "idle", transport := .process "idle-ls" [] }
  [.ofConfig idle {}, .ofConfig Scene.wholeTexts.server {}]

/-- The second session begins to run, and then all are told that a document is opened and closed. -/
def openedAndClosed : List Move :=
  Scene.began.map (.session 1) ++
    .passOn [.opened ⟨"file:///a.rs", "rust", 1, "fn"⟩, .closed "file:///a.rs"] ::
      List.replicate 16 (.manage 0)

/-- Though another session comes first, the server is told of both. -/
theorem sessions_do_not_interfere_openedAndClosed :
    let d := (machine Scene.wholeTexts.host idleAndRunning).after openedAndClosed
    let own := aloneRun Scene.wholeTexts.host idleAndRunning 1 openedAndClosed
    let one := (machine Scene.wholeTexts.host [.ofConfig Scene.wholeTexts.server {}]).after own
    (d.told 1 0).map (·.method) = ["textDocument/didOpen", "textDocument/didClose"] ∧
    one.told 0 0 = d.told 1 0 := by
  have told : (((machine Scene.wholeTexts.host idleAndRunning).after openedAndClosed).told 1 0).map
      (·.method) = ["textDocument/didOpen", "textDocument/didClose"] := by decide +kernel
  obtain ⟨-, -, same, -⟩ := sessions_do_not_interfere Scene.wholeTexts.host idleAndRunning 1
    (.ofConfig Scene.wholeTexts.server {}) (by decide) rfl openedAndClosed
  exact ⟨told, same 0⟩

end Ensemble

end LanguageClient
