import LanguageClient.Manager
import LanguageClient.Proofs.Session.Hosted
/-!
# A manager and all its sessions

`Ensemble` is a manager with its sessions and a clock.  What happens to one session, or beside all of
them, are the moves of a scene; besides, all sessions are started or stopped at once, events are passed
on to all, and the tasks of the manager take their steps.  The user, of whom there is one for all
sessions, decides how he will answer what he is asked next.

The lemmas here say what a manager does with each of its sessions: `Manager.stepSession_cases` is a step
for one of them, and `Manager.stepManager_cases` lists what a task of the manager can do.
-/

namespace LanguageClient

namespace Manager

variable {m m' : Manager} {now i k : Nat} {s : Session} {actor : Actor}

/-! ## Sessions -/

/-- Sessions with names of their own are all taken in. -/
theorem foldl_add (sessions : List Session) : ∀ m : Manager,
    ((m.sessions ++ sessions).map (·.name)).Nodup →
      sessions.foldl add m = { m with sessions := m.sessions ++ sessions } := by
  induction sessions with
  | nil => simp
  | cons s sessions ih =>
    intro m distinct
    have free : m.session? s.name = none := by
      refine List.find?_eq_none.mpr fun s' among taken => ?_
      rw [List.map_append, List.nodup_append] at distinct
      exact distinct.2.2 s'.name (List.mem_map_of_mem among) s.name (by simp) (by simpa using taken)
    have added : m.add s = { m with sessions := m.sessions ++ [s] } := by simp [add, free]
    rw [List.foldl_cons, added, ih _ (by simpa using distinct)]
    simp

/-- Some sessions get a task each. -/
theorem foldl_spawn (m : Manager) (task : Task) (n : Nat) :
    let m' := (List.range n).foldl (fun m i => m.spawn i task) m
    m'.host = m.host ∧ m'.tasks = m.tasks ∧ ∀ i, m'.sessions[i]? =
      if i < n then (m.sessions[i]?).map (Session.spawn · task) else m.sessions[i]? := by
  induction n with
  | zero => simp
  | succ n ih =>
    simp only [List.range_succ, List.foldl_append, List.foldl_cons, List.foldl_nil]
    generalize (List.range n).foldl (fun m i => m.spawn i task) m = m' at ih
    obtain ⟨host, tasks, sessions⟩ := ih
    refine ⟨host, tasks, fun i => ?_⟩
    simp only [spawn, onSession, List.getElem?_modify, sessions]
    by_cases last : n = i
    · subst last
      simp
    · have same : (i < n + 1) ↔ i < n := by omega
      simp [last, same]

/-- All sessions get a task each, and the manager sees to these tasks. -/
theorem spawnEach_cases (m : Manager) (task : Task) :
    (m.spawnEach task).1.host = m.host ∧ (m.spawnEach task).1.tasks = m.tasks ∧
    (∀ i : Nat, (m.spawnEach task).1.sessions[i]? = (m.sessions[i]?).map (Session.spawn · task)) ∧
    (m.spawnEach task).2 = (List.range m.sessions.length).map fun i => (⟨i, m.nextTask i⟩ : Errand) := by
  obtain ⟨host, tasks, sessions⟩ := m.foldl_spawn task m.sessions.length
  refine ⟨host, tasks, fun i => (sessions i).trans ?_, rfl⟩
  split
  · rfl
  · rename_i outside
    simp [List.getElem?_eq_none (Nat.le_of_not_lt outside)]

/-! ## Steps -/

theorem stepSession_eq (here : m.sessions[i]? = some s) : m.stepSession now i actor =
    (s.step now m.host actor).map fun r => { m with host := r.1, sessions := m.sessions.set i r.2 } := by
  simp only [stepSession, here, Option.bind_eq_bind, Option.bind_some]
  cases s.step now m.host actor <;> rfl

/-- A step of one session leaves the others as they are. -/
theorem stepSession_cases (step : m.stepSession now i actor = some m') :
    m'.host.lasting = m.host.lasting ∧ m'.tasks = m.tasks ∧
      ∀ j, j ≠ i → m'.sessions[j]? = m.sessions[j]? := by
  cases here : m.sessions[i]? with
  | none => simp [stepSession, here] at step
  | some s =>
    rw [stepSession_eq here] at step
    obtain ⟨⟨h, s'⟩, stepped, rfl⟩ := Option.map_eq_some_iff.mp step
    exact ⟨Session.step_lasting stepped, rfl, fun j other => by simp [Ne.symm other]⟩

/-- What a step of a task of the manager can do: it does an errand, or goes on with the events that it
    passes on. -/
inductive Turned (now : Nat) (m : Manager) (k : Nat) : Manager → Prop where
  /-- The first errand that can go on goes on. -/
  | ran (task : ManagerTask) (errands before after : List Errand) (e : Errand) (m' : Manager)
      (here : m.tasks[k]? = some task) (which : task = .starting errands ∨ task = .stopping errands)
      (split : errands = before ++ e :: after)
      (waits : ∀ e ∈ before, m.stepSession now e.session (.task e.task) = none)
      (step : m.stepSession now e.session (.task e.task) = some m') : Turned now m k m'
  | passed (event : DocumentEvent) (events : List DocumentEvent)
      (here : m.tasks[k]? = some (.passOn (event :: events) [] none)) : Turned now m k
        { m with tasks := m.tasks.set k (.passOn events (List.range m.sessions.length) none) }
  | handed (event : DocumentEvent) (events : List DocumentEvent) (i : Nat) (waiting : List Nat)
      (here : m.tasks[k]? = some (.passOn (event :: events) (i :: waiting) none)) : Turned now m k
        { m.spawn i (.event event .locking) with
          tasks := m.tasks.set k (.passOn (event :: events) waiting (some ⟨i, m.nextTask i⟩)) }
  | done (event : DocumentEvent) (events : List DocumentEvent) (waiting : List Nat) (e : Errand)
      (here : m.tasks[k]? = some (.passOn (event :: events) waiting (some e)))
      (ended : (m.task? e).any hasEnded = true) : Turned now m k
        { m with tasks := m.tasks.set k (.passOn (event :: events) waiting none) }
  | worked (event : DocumentEvent) (events : List DocumentEvent) (waiting : List Nat) (e : Errand)
      (m' : Manager) (here : m.tasks[k]? = some (.passOn (event :: events) waiting (some e)))
      (more : (m.task? e).any hasEnded = false)
      (step : m.stepSession now e.session (.task e.task) = some m') : Turned now m k m'

theorem stepManager_cases (step : m.stepManager now k = some m') : Turned now m k m' := by
  unfold stepManager at step
  obtain ⟨task, here, step⟩ := Option.bind_eq_some_iff.mp step
  have ran : ∀ {errands : List Errand}, (task = .starting errands ∨ task = .stopping errands) →
      errands.findSome? (fun e => m.stepSession now e.session (.task e.task)) = some m' →
      Turned now m k m' := by
    intro errands which found
    obtain ⟨before, e, after, split, stepped, waits⟩ := List.findSome?_eq_some_iff.mp found
    exact .ran task errands before after e m' here which split waits stepped
  split at step
  · exact ran (Or.inl rfl) step
  · exact ran (Or.inr rfl) step
  · simp at step
  · rename_i event events
    obtain rfl := Option.some.inj step
    exact .passed event events here
  · rename_i event events i waiting
    obtain rfl := Option.some.inj step
    exact .handed event events i waiting here
  · rename_i events waiting e some
    obtain ⟨event, events, rfl⟩ := List.exists_cons_of_ne_nil some
    split at step
    · rename_i ended
      obtain rfl := Option.some.inj step
      exact .done event events waiting e here ended
    · rename_i more
      exact .worked event events waiting e m' here (by simpa using more) step

end Manager

/-! ## Ensembles -/

/-- A manager with its sessions, and the time. -/
structure Ensemble where
  manager : Manager
  now : Nat := 0

namespace Ensemble

inductive Move where
  | startAll
  | stopAll
  /-- Events are passed on to all sessions. -/
  | passOn (events : List DocumentEvent)
  | manage (k : Nat)
  /-- Something happens to one session, or beside all of them. -/
  | session (i : Nat) (move : Scene.Move)
  /-- The user decides how he will answer what he is asked next. -/
  | decide (answers : List (Option String)) (mode : PromptMode)

/-- One session, with the host and the time of all. -/
def scene (d : Ensemble) (i : Nat) : Scene :=
  { host := d.manager.host, session := (d.manager.sessions[i]?).getD default, now := d.now }

/-- Puts a session back into its place, with the host and the time. -/
def put (d : Ensemble) (i : Nat) (scene : Scene) : Ensemble :=
  { manager := { d.manager with
      host := scene.host
      sessions := d.manager.sessions.set i scene.session }
    now := scene.now }

def step (d : Ensemble) : Move → Ensemble
  | .startAll => { d with manager := d.manager.startAll }
  | .stopAll => { d with manager := d.manager.stopAll }
  | .passOn events => { d with manager := d.manager.passOn events }
  | .manage k => { d with manager := (d.manager.stepManager d.now k).getD d.manager }
  | .session i move => d.put i ((d.scene i).step move)
  | .decide answers mode =>
    { d with manager := { d.manager with host := d.manager.host.decided answers mode } }

/-- A manager with some sessions. -/
def machine (host : Host) (sessions : List Session) : Machine Ensemble Move :=
  { start := { manager := sessions.foldl Manager.add { host } }, step }

@[simp] theorem step_machine (host : Host) (sessions : List Session) :
    (machine host sessions).step = step := rfl

end Ensemble

end LanguageClient
