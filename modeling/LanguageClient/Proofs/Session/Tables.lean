import LanguageClient.Proofs.Session.Calls
/-!
# The calls of a session and the tables of its connections

The calls of all tasks on a connection lie in its tables as they should, and a response that a task
fetches is one that was assigned to the call of that task, or tells that the connection has ended
(`callsKept_after`).
-/

namespace LanguageClient

namespace Session

variable {now : Nat} {h h' : Host} {s s' : Session} {t i c : Nat} {task task' : Task}

/-! ## Calls on one connection -/

/-- The calls of all tasks on a connection. -/
def calls (s : Session) (c t : Nat) : Option Call :=
  (s.tasks[t]?).bind (Task.callOn c)

theorem calls_eq_some_iff {call : Call} :
    s.calls c t = some call ↔ ∃ task, s.tasks[t]? = some task ∧ task.call? = some (c, call) := by
  simp [calls, Option.bind_eq_some_iff, Task.callOn_eq_some_iff]

section Tables

variable {ι : Type} {calls : ι → Option Call} {p q : ι → Nat → Response → Prop}
  {c c' : Connection}

/-- The calls lie in the tables of a connection, and `p` knows of all responses in them. -/
structure Kept (c : Connection) (calls : ι → Option Call) (p : ι → Nat → Response → Prop) :
    Prop where
  correlated : Correlated c calls
  sourced : Sourced c calls p

namespace Kept

theorem congr (h : Kept c calls p) (nextId : c'.nextId = c.nextId) (pending : c'.pending = c.pending)
    (replies : c'.replies = c.replies) : Kept c' calls p :=
  ⟨h.correlated.congr nextId pending replies, fun i k r tabled reply =>
    h.sourced i k r tabled (by rwa [replies] at reply)⟩

theorem mono (h : Kept c calls p) (more : ∀ i k r, p i k r → q i k r) : Kept c calls q :=
  ⟨h.correlated, h.sourced.mono more⟩

/-- A connection changes by itself. -/
theorem effect (h : Kept c calls p) (effect : c.Effect c')
    (assigned : ∀ id i k r, c.readPhase = .settling id r → id.asNumber = some k → k ∈ c.pending →
      Tabled calls i k → p i k r)
    (told : ∀ i k, p i k (c.terminationResponse k)) : Kept c' calls p :=
  ⟨h.correlated.effect effect, h.sourced.effect effect assigned fun i k _ _ => told i k⟩

/-- A connection changes by itself, or is written on. -/
theorem tame {may : Notification → Prop} (h : Kept c calls p) (tame : c.Tame may c')
    (assigned : ∀ id i k r, c.readPhase = .settling id r → id.asNumber = some k → k ∈ c.pending →
      Tabled calls i k → p i k r)
    (told : ∀ i k, p i k (c.terminationResponse k)) : Kept c' calls p := by
  cases tame with
  | effect effect => exact h.effect effect assigned told
  | noticed n said can rest => exact h.congr rest.nextId rest.pending rest.replies

section Update

variable [DecidableEq ι] {i : ι} {call : Call}

/-- A call without a number comes or goes. -/
theorem idle (h : Kept c calls p) (old : ∀ call, calls i = some call → call.number? = none)
    {new : Option Call} (idle : ∀ call, new = some call → call.number? = none) :
    Kept c (Function.update calls i new) p := by
  have untabled : ∀ {call : Call}, call.number? = none → ∀ k, call.tabled? ≠ some k :=
    fun none k tabled => by simp [Call.number?_of_tabled? tabled] at none
  have numbers : ∀ j k, Numbered (Function.update calls i new) j k ↔ Numbered calls j k := by
    intro j k
    by_cases same : j = i
    · subst same
      constructor
      · rintro ⟨call, here, number⟩
        simp [idle call (by simpa using here)] at number
      · rintro ⟨call, here, number⟩
        simp [old call here] at number
    · simp [Numbered, same]
  have tables : ∀ j k, Tabled (Function.update calls i new) j k ↔ Tabled calls j k := by
    intro j k
    by_cases same : j = i
    · subst same
      constructor
      · rintro ⟨call, here, tabled⟩
        exact absurd tabled (untabled (idle call (by simpa using here)) k)
      · rintro ⟨call, here, tabled⟩
        exact absurd tabled (untabled (old call here) k)
    · simp [Tabled, same]
  exact ⟨h.correlated.of_iff numbers tables, fun j k r tabled reply =>
    h.sourced j k r ((tables j k).mp tabled) reply⟩

/-- A call changes and keeps its number, in or out of the tables. -/
theorem move (h : Kept c calls p) (here : calls i = some call) {call' : Call}
    (number : call'.number? = call.number?) (tabled : call'.tabled? = call.tabled?) :
    Kept c (Function.update calls i (some call')) p := by
  refine ⟨h.correlated.move here number tabled, fun j k r tabled' reply => ?_⟩
  rw [tabled_update] at tabled'
  split at tabled'
  · rename_i same
    subst same
    exact h.sourced j k r ⟨call, here, tabled ▸ tabled'⟩ reply
  · exact h.sourced j k r tabled' reply

theorem step (h : Kept c calls p) (here : calls i = some call) {now : Nat} {phase : CallPhase}
    (step : Call.Step now c call c' phase) :
    Kept c' (Function.update calls i (some { call with phase })) p :=
  ⟨h.correlated.step here step, h.sourced.step h.correlated here step⟩

end Update

end Kept

end Tables

/-- The calls of all tasks lie in the tables of the connections, and `p` knows of all responses in
    them. -/
def CallsKept (s : Session) (p : Nat → Nat → Nat → Response → Prop) : Prop :=
  ∀ c, Kept (s.connection c) (s.calls c) (p c)

/-- The tables of a connection are those of another. -/
def SameTables (c c' : Connection) : Prop :=
  c'.nextId = c.nextId ∧ c'.pending = c.pending ∧ c'.replies = c.replies

theorem sameTables_connection (same : s'.connections = s.connections) (c : Nat) :
    SameTables (s.connection c) (s'.connection c) := by
  unfold connection
  rw [same]
  cases s.connections[c]? <;> exact ⟨rfl, rfl, rfl⟩

theorem sameTables_connection_append {connection : Connection}
    (new : SameTables { name := s.name } connection)
    (connections : s'.connections = s.connections ++ [connection]) (c : Nat) :
    SameTables (s.connection c) (s'.connection c) := by
  unfold Session.connection
  rw [connections, List.getElem?_append]
  split
  · rename_i inside
    rw [List.getElem?_eq_getElem inside]
    exact ⟨rfl, rfl, rfl⟩
  · rename_i outside
    rw [List.getElem?_eq_none (Nat.le_of_not_lt outside), List.getElem?_singleton]
    split
    · exact new
    · exact ⟨rfl, rfl, rfl⟩

theorem sameTables_connection_set {connection : Connection} {c : Nat}
    (connections : s'.connections = s.connections.set c connection) {c' : Nat}
    (other : c' ≠ c ∨ s.connections.length ≤ c) :
    SameTables (s.connection c') (s'.connection c') := by
  have same : s'.connections[c']? = s.connections[c']? := by
    rcases other with other | outside
    · rw [connections, List.getElem?_set_ne (Ne.symm other)]
    · rw [connections, List.set_eq_of_length_le outside]
  unfold Session.connection
  rw [same]
  cases s.connections[c']? <;> exact ⟨rfl, rfl, rfl⟩

theorem connection_eq_of_set {connection : Connection} {c : Nat}
    (connections : s'.connections = s.connections.set c connection)
    (inside : c < s.connections.length) : s'.connection c = connection := by
  simp [Session.connection, connections, inside]

theorem calls_ne_of_ne {call : Call} {c c' : Nat} (here : s.tasks[t]? = some task)
    (calling : task.call? = some (c, call)) (other : c' ≠ c) : s.calls c' t = none := by
  simp [calls, here, Task.callOn, calling, Ne.symm other]

/-- What is known of the responses goes on to be known, is known when the read loop assigns one, and
    of those that tell that a connection has ended. -/
structure Informed (s : Session) (p q : Nat → Nat → Nat → Response → Prop) : Prop where
  more : ∀ c i k r, p c i k r → q c i k r
  assigned : ∀ c id i k r, (s.connection c).readPhase = .settling id r → id.asNumber = some k →
    k ∈ (s.connection c).pending → Tabled (s.calls c) i k → q c i k r
  told : ∀ c i k (connection : Connection), q c i k (connection.terminationResponse k)

variable {p q : Nat → Nat → Nat → Response → Prop}

/-- The calls stay where they should be when a task takes a step. -/
theorem Talk.callsKept (talk : Talk now s task s' task') (here : s.tasks[t]? = some task)
    (grounded : Grounded s) (informed : Informed s p q) (kept : s.CallsKept p) (c : Nat) :
    Kept (s'.connection c) (Function.update (s.calls c) t (task'.callOn c)) (q c) := by
  have before := (kept c).mono (informed.more c)
  have same : s.calls c t = task.callOn c := by simp [calls, here]
  -- an idle task has no numbered call on the connection
  have idleBefore : task.Idle → ∀ call, s.calls c t = some call → call.number? = none :=
    fun idle call some => idle c call (Task.callOn_eq_some_iff.mp (same ▸ some))
  have idleAfter : task'.Idle → ∀ call, task'.callOn c = some call → call.number? = none :=
    fun idle call some => idle c call (Task.callOn_eq_some_iff.mp some)
  have congr : ∀ {calls : Nat → Option Call}, SameTables (s.connection c) (s'.connection c) →
      Kept (s.connection c) calls (q c) → Kept (s'.connection c) calls (q c) :=
    fun tables h => h.congr tables.1 tables.2.1 tables.2.2
  have tame : ∀ {may connection}, (s.connection c).Tame may connection →
      Kept connection (s.calls c) (q c) := fun tame =>
    before.tame tame (informed.assigned c) fun i k => informed.told c i k _
  cases talk with
  | quiet connections idle =>
    refine congr (sameTables_connection connections c) ?_
    rcases idle with calls | ⟨idle, idle'⟩
    · have unchanged : task'.callOn c = s.calls c t := by simp [same, Task.callOn, calls]
      rw [unchanged, Function.update_eq_self]
      exact before
    · exact before.idle (idleBefore idle) (idleAfter idle')
  | opened connections idle =>
    refine congr (sameTables_connection_append ?_ connections c) ?_
    · exact ⟨rfl, rfl, rfl⟩
    · exact before.idle (idleBefore idle.1) (idleAfter idle.2)
  | tended c' connection isTame connections idle =>
    -- only one connection changes, and it may be another than the one in question
    by_cases there : c = c' ∧ c' < s.connections.length
    · obtain ⟨rfl, inside⟩ := there
      rw [connection_eq_of_set connections inside]
      exact (tame isTame).idle (idleBefore idle.1) (idleAfter idle.2)
    · refine congr (sameTables_connection_set connections (by omega)) ?_
      exact before.idle (idleBefore idle.1) (idleAfter idle.2)
  | began c' connection₁ connection call phase there idle isTame fresh step connections call' =>
    have inside : c' < s.connections.length :=
      there.elim (grounded.worked t task c' here) (grounded.current c')
    by_cases on : c = c'
    · subst on
      rw [connection_eq_of_set connections inside, Task.callOn_eq_some_iff.mpr call']
      have begun : Kept connection₁ (Function.update (s.calls c) t (some call)) (q c) :=
        (tame isTame).idle (idleBefore idle) (by simp [Call.number?, fresh])
      simpa using begun.step (Function.update_self t (some call) (s.calls c)) step
    · refine congr (sameTables_connection_set connections (Or.inl on)) ?_
      refine before.idle (idleBefore idle) fun call₁ some => ?_
      simp [Task.callOn, call', Ne.symm on] at some
  | talked c' connection call phase calling step connections call' =>
    have inside : c' < s.connections.length :=
      grounded.worked t task c' here (connection?_of_call? calling)
    by_cases on : c = c'
    · subst on
      rw [connection_eq_of_set connections inside]
      have stepped := before.step (same.trans (Task.callOn_eq_some_iff.mpr calling)) step
      -- the call stays the task's, or it is past and the task turns to something else
      rcases call' with call' | ⟨past, idle⟩
      · rwa [Task.callOn_eq_some_iff.mpr call']
      · simpa using stepped.idle (i := t) (by simpa using past) (idleAfter idle)
    · refine congr (sameTables_connection_set connections (Or.inl on)) ?_
      refine before.idle (by simp [calls_ne_of_ne here calling on]) fun call₁ some => ?_
      rcases call' with call' | ⟨-, idle⟩
      · simp [Task.callOn, call', Ne.symm on] at some
      · exact idleAfter idle call₁ some

theorem calls_setTask (here : s.tasks[t]? = some task) (step : TaskStep now h s t task h' s' task')
    (c : Nat) :
    (s'.setTask t task').calls c = Function.update (s.calls c) t (task'.callOn c) := by
  funext i
  have moved := Moved.task t task _ s' task' here step
  by_cases same : i = t
  · subst same
    have inside : i < s'.tasks.length := by
      have := (List.getElem?_eq_some_iff.mp here).1
      rcases step.tasks with same | ⟨born, -, more⟩
      · simpa [same] using this
      · simp [more]
        omega
    simp [calls, setTask, inside]
  · rw [Function.update_of_ne same]
    unfold calls
    cases after : (s'.setTask t task').tasks[i]? with
    | some x =>
      have other : s'.tasks[i]? = some x := by
        simpa [setTask, List.getElem?_set_ne (Ne.symm same)] using after
      -- a task that the step bears comes last, and has no call yet
      rcases step.tasks with kept | ⟨born, isBorn, more⟩
      · rw [kept] at other
        rw [other]
      · rw [more, List.getElem?_append] at other
        split at other
        · rw [other]
        · rename_i outside
          rw [List.getElem?_eq_none (Nat.le_of_not_lt outside)]
          rw [List.getElem?_singleton] at other
          split at other
          · rw [Option.some.injEq] at other
            subst other
            cases isBorn <;> rfl
          · simp at other
    | none =>
      have gone : s.tasks[i]? = none := by
        rw [List.getElem?_eq_none_iff] at after ⊢
        rcases step.tasks with kept | ⟨born, -, more⟩
        · simpa [setTask, kept] using after
        · simp [setTask, more] at after
          omega
      rw [gone]

theorem Moved.callsKept (moved : Moved now h s h' s') (grounded : Grounded s)
    (informed : Informed s p q) (kept : s.CallsKept p) : s'.CallsKept q := by
  intro c
  cases moved with
  | task t task _ s₁ task' here step =>
    rw [calls_setTask here step]
    exact step.talk.callsKept here grounded informed kept c
  | served _ _ serves =>
    obtain ⟨c', connection, registry, handlers, passing, diagnostics, -, effect, rfl⟩ := serves
    have before := (kept c).mono (informed.more c)
    have connections : (s.setConnection c' connection).connections = s.connections.set c' connection :=
      rfl
    change Kept ((s.setConnection c' connection).connection c) (s.calls c) (q c)
    by_cases there : c = c' ∧ c' < s.connections.length
    · obtain ⟨rfl, inside⟩ := there
      rw [connection_eq_of_set connections inside]
      exact before.effect effect (informed.assigned c) fun i k => informed.told c i k _
    · have tables : SameTables (s.connection c) ((s.setConnection c' connection).connection c) :=
        sameTables_connection_set connections (by omega)
      exact before.congr tables.1 tables.2.1 tables.2.2

end Session

namespace Scene

variable {setup : Setup} {moves : List Move} {d d' : Scene}

theorem calls_spawn {s : Session} {task : Task} (idle : task.call? = none) (c : Nat) :
    (s.spawn task).calls c = s.calls c := by
  funext i
  unfold Session.calls
  simp only [Session.spawn, List.getElem?_append]
  split
  · rfl
  · rename_i outside
    rw [List.getElem?_eq_none (Nat.le_of_not_lt outside), List.getElem?_singleton]
    split <;> simp [Task.callOn, idle]

/-- The read loop of a connection is about to assign a response to the call of a task that waits. -/
def Assigns (d : Scene) (c t k : Nat) (r : Response) : Prop :=
  ∃ id, (d.session.connection c).readPhase = .settling id r ∧ id.asNumber = some k ∧
    k ∈ (d.session.connection c).pending ∧ Numbered (d.session.calls c) t k

/-- What is known of a response that a task has: the read loop assigned it to the call of the task, or
    it tells that the connection has ended. -/
def Source (setup : Setup) (moves : List Move) (c t k : Nat) (r : Response) : Prop :=
  (machine setup).Once moves (·.Assigns c t k r) ∨
    ∃ connection : Connection, r = connection.terminationResponse k

theorem Source.append {c t k : Nat} {r : Response} (h : Source setup moves c t k r)
    (more : List Move) : Source setup (moves ++ more) c t k r :=
  h.imp (fun once => once.append more) id

theorem Change.callsKept {move : Move} (change : Change d d') (before : (machine setup).after moves = d)
    (kept : d.session.CallsKept (Source setup moves)) :
    d'.session.CallsKept (Source setup (moves ++ [move])) := by
  have grounded := before ▸ @grounded_after setup moves
  -- whoever has been assigned a response keeps it: the source only grows
  have informed : d.session.Informed (Source setup moves) (Source setup (moves ++ [move])) := by
    refine ⟨fun c i k r h => h.append [move], ?_, fun c i k connection => Or.inr ⟨connection, rfl⟩⟩
    intro c id i k r place number waits tabled
    have now : d.Assigns c i k r := ⟨id, place, number, waits, tabled.numbered⟩
    exact Or.inl ((Machine.Once.now (before ▸ now)).append [move])
  have same : d.session.CallsKept (Source setup (moves ++ [move])) := fun c =>
    (kept c).mono (informed.more c)
  cases change with
  | stayed | edited | passed => exact same
  | moved h s step => exact step.callsKept grounded informed kept
  | spawned task fresh =>
    intro c
    rw [calls_spawn fresh.call?]
    exact same c
  | fired t method params cancelled p place =>
    intro c
    have inside : t < d.session.tasks.length := (List.getElem?_eq_some_iff.mp place).1
    have calls : (d.session.setTask t (.request method params true p)).calls c =
        Function.update (d.session.calls c) t
          ((Task.request method params true p).callOn c) := by
      funext i
      by_cases here : i = t
      · subst here; simp [Session.calls, Session.setTask, inside]
      · simp [Session.calls, Session.setTask, List.getElem?_set_ne (Ne.symm here), here]
    have old : d.session.calls c t = (Task.request method params cancelled p).callOn c := by
      simp [Session.calls, place]
    change Session.Kept (d.session.connection c) _ _
    rw [calls]
    cases calling : (Task.request method params cancelled p).callOn c with
    | none =>
      have still : (Task.request method params true p).callOn c = none := by
        revert calling
        cases p <;> simp [Task.callOn, Task.call?]
      exact (same c).idle (by simp [old, calling]) (by simp [still])
    | some call =>
      -- a cancellation flag changes neither the number of a call nor its place in the table
      obtain ⟨call', still, number, tabled⟩ : ∃ call',
          (Task.request method params true p).callOn c = some call' ∧
            call'.number? = call.number? ∧ call'.tabled? = call.tabled? := by
        revert calling
        cases p with
        | calling c' call₁ =>
          simp only [Task.callOn, Task.call?, Option.bind_some]
          split
          · rintro ⟨rfl⟩
            exact ⟨_, rfl, rfl, rfl⟩
          · simp
        | _ => simp [Task.callOn, Task.call?]
      rw [still]
      exact (same c).move (old.trans calling) number tabled

/-- The calls of all tasks lie in the tables of the connections, and every response there is one that
    was assigned to the call of its task, or tells that the connection has ended. -/
theorem callsKept_after (moves : List Move) :
    ((machine setup).after moves).session.CallsKept (Source setup moves) := by
  refine run_changes (fun moves d => d.session.CallsKept (Source setup moves)) ?_ ?_ moves
  · intro c
    have nobody : ∀ t, ((machine setup).start).session.calls c t = none := by
      simp [machine, Session.ofConfig, Session.calls]
    have untouched : ((machine setup).start).session.connection c =
        { name := ((machine setup).start).session.name } := by
      simp [machine, Session.ofConfig, Session.connection]
    rw [untouched]
    refine ⟨?_, fun t k r tabled => ?_⟩
    · constructor <;> simp [Numbered, Tabled, nobody]
    · simp [Tabled, nobody] at tabled
  · exact fun moves move d d' before _ change h => change.callsKept before h

end Scene

end LanguageClient
