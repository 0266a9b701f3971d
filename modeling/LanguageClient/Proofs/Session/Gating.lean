import LanguageClient.Proofs.Session.Covering
import LanguageClient.Proofs.Session.FeatureProgress
import LanguageClient.Proofs.Session.Retaining
import LanguageClient.Proofs.Session.Saving
/-!
# Features are for servers that want them

A server wants a feature for a document when its capabilities say so, or when it has registered the
feature for the document in the language that the host reports (`Scene.Wants`).  A call for a feature
looks at one after the other, with steps of other tasks in between; so what it has seen has to hold
until it writes its message.  `Account` says for each stage of a call why it has come so far, and
`call_accounted_after` that every call can be accounted for while no handler of a message takes a step.
-/

namespace LanguageClient

namespace RegistryEvent

/-- What an event does to the registry, if anything. -/
def op? : RegistryEvent → Option RegistryOp
  | wished .. => none
  | made _ _ change => some (.made change)
  | cleared => some .clear

theorem replay_eq_ofOps (events : List RegistryEvent) :
    replay events {} = CapabilityRegistry.ofOps (events.filterMap op?) := by
  induction events using List.reverseRecOn with
  | nil => rfl
  | append_singleton events event ih =>
    have last : replay (events ++ [event]) {} = event.apply (replay events {}) := by
      rw [replay, List.foldl_append]
      rfl
    rw [last, ih, List.filterMap_append]
    cases event with
    | wished => exact congrArg CapabilityRegistry.ofOps (List.append_nil _).symm
    | made _ _ change => exact (CapabilityRegistry.ofOps_concat _ (.made change)).symm
    | cleared => exact (CapabilityRegistry.ofOps_concat _ .clear).symm

end RegistryEvent

namespace Scene

variable {setup : Setup} {moves before between : List Move} {move : Move} {d d' : Scene} {t c : Nat}
  {f : Feature} {task : Task} {stage : Feature.Stage} {p q : Scene → Prop}

/-! ## What a server wants -/

/-- The server wants a feature: its capabilities say so, or it has registered the feature for the
    document, in the language that the host reports. -/
def Wants (d : Scene) (f : Feature) : Prop :=
  d.session.advertises f.advertised = true ∨
    d.session.registry.covers f.method (d.host.languageOf f.uri) f.uri = true

/-- The feature is for the document: the server has it open, if that is needed. -/
def Regards (d : Scene) (f : Feature) : Prop :=
  f.forOpen = true → d.session.sync.isAnnounced f.uri = true

/-- The session has a connection that can be written on and has not ended. -/
def Connected (d : Scene) : Prop :=
  ∃ c, d.session.current = some c ∧ (d.session.connection c).canWrite = true ∧
    (d.session.connection c).terminated = false

/-! ## Stretches -/

/-- Something is so at a moment of a stretch of a run. -/
def Meanwhile (setup : Setup) (before between : List Move) (p : Scene → Prop) : Prop :=
  ∃ first rest, between = first ++ rest ∧ p ((machine setup).after (before ++ first))

theorem Meanwhile.now (h : p ((machine setup).after (before ++ between))) :
    Meanwhile setup before between p :=
  ⟨between, [], by simp, h⟩

theorem Meanwhile.append (h : Meanwhile setup before between p) (more : List Move) :
    Meanwhile setup before (between ++ more) p := by
  obtain ⟨first, rest, rfl, held⟩ := h
  exact ⟨first, rest ++ more, by simp, held⟩

theorem Meanwhile.imp (h : Meanwhile setup before between p) (weaken : ∀ d, p d → q d) :
    Meanwhile setup before between q := by
  obtain ⟨first, rest, split, held⟩ := h
  exact ⟨first, rest, split, weaken _ held⟩

/-- All along a stretch of a run the session is running, and no handler of a message takes a step. -/
structure Undisturbed (setup : Setup) (before between : List Move) : Prop where
  running : ∀ first rest, between = first ++ rest →
    ((machine setup).after (before ++ first)).session.state = .running
  unhandled : ∀ c j, .act (.handler c j) ∉ between

theorem Undisturbed.of_append {more : List Move} (undisturbed : Undisturbed setup before (between ++ more)) :
    Undisturbed setup before between := by
  constructor
  · intro first rest split
    exact undisturbed.running first (rest ++ more) (by rw [split, List.append_assoc])
  · intro c j among
    exact undisturbed.unhandled c j (List.mem_append_left _ among)

theorem Undisturbed.ran (undisturbed : Undisturbed setup before between) :
    ∃ i c kind, RanOn setup (before ++ between) i c kind := by
  have ran := @ranOn_of_running setup (before ++ between) [] (undisturbed.running between [] (by simp))
  rwa [List.append_nil] at ran

/-- A call has written its message: a step of its task has added it to what was sent on a connection. -/
def Said (setup : Setup) (before between : List Move) (t : Nat) (f : Feature) : Prop :=
  ∃ first rest c m, between = first ++ .act (.task t) :: rest ∧ f.Says m ∧
    (((machine setup).after (before ++ first ++ [.act (.task t)])).session.connection c).sent =
      (((machine setup).after (before ++ first)).session.connection c).sent ++ [m]

theorem Said.append (h : Said setup before between t f) (more : List Move) :
    Said setup before (between ++ more) t f := by
  obtain ⟨first, rest, c, m, rfl, said, sent⟩ := h
  exact ⟨first, rest ++ more, c, m, by simp, said, sent⟩

/-! ## Why a call has come so far -/

/-- Why a call for a feature has come to a stage. -/
def Account (setup : Setup) (before between : List Move) (t : Nat) (f : Feature) :
    Feature.Stage → Prop
  | .called => True
  | .regarded => Meanwhile setup before between (·.Regards f)
  | .unadvertised =>
    Meanwhile setup before between (·.Regards f) ∧
      ((machine setup).after (before ++ between)).session.advertises f.advertised = false
  | .named language =>
    Meanwhile setup before between (·.Regards f) ∧
      Meanwhile setup before between fun d => d.session.advertises f.advertised = false ∧
        d.host.languageOf f.uri = language ∧
        d.session.Retains ((machine setup).after (before ++ between)).session
  | .decided =>
    Meanwhile setup before between (·.Regards f) ∧ Meanwhile setup before between (·.Wants f)
  | .past =>
    Said setup before between t f ∨ Meanwhile setup before between (¬ ·.Wants f) ∨
      Meanwhile setup before between (¬ ·.Regards f) ∨ Meanwhile setup before between (¬ ·.Connected)

theorem Account.concat (account : Account setup before between t f stage)
    (retains : ((machine setup).after (before ++ between)).session.Retains
      ((machine setup).after (before ++ (between ++ [move]))).session) :
    Account setup before (between ++ [move]) t f stage := by
  cases stage with
  | called => trivial
  | regarded =>
    have regards : Meanwhile setup before between (·.Regards f) := account
    exact regards.append [move]
  | unadvertised =>
    obtain ⟨regards, unwanted⟩ := account
    exact ⟨regards.append [move], retains.unadvertised unwanted⟩
  | named language =>
    obtain ⟨regards, unwanted⟩ := account
    refine ⟨regards.append [move], (unwanted.append [move]).imp ?_⟩
    rintro d ⟨unwanted, named, before⟩
    exact ⟨unwanted, named, before.trans retains⟩
  | decided =>
    obtain ⟨regards, wants⟩ := account
    exact ⟨regards.append [move], wants.append [move]⟩
  | past =>
    rcases account with said | unwanted | unregarded | cut
    · exact Or.inl (said.append [move])
    · exact Or.inr (Or.inl (unwanted.append [move]))
    · exact Or.inr (Or.inr (Or.inl (unregarded.append [move])))
    · exact Or.inr (Or.inr (Or.inr (cut.append [move])))

/-- The registry has the feature for the document in the language that was named: then the server wants
    the feature. -/
theorem wants_of_covered {language : String} {s : Session}
    (unwanted : d.host.languageOf f.uri = language) (retains : d.session.Retains s)
    (covered : s.registry.covers f.method language f.uri = true) : d.Wants f := by
  rcases retains.registry with same | ⟨empty, -⟩
  · rw [same, ← unwanted] at covered
    exact Or.inr covered
  · rw [empty] at covered
    cases covered

theorem current_of_connection (here : ((machine setup).after moves).session.tasks[t]? = some task)
    (calls : f.At task stage) (works : task.connection? = some c) :
    ∀ c', ((machine setup).after moves).session.current = some c' → c' = c := by
  cases calls with
  | warning uri reason p warns =>
    have holds : (Task.event (.willSave uri reason) p).HoldsSync := by
      cases p with
      | locking | looking | ended => cases works
      | _ => trivial
    obtain ⟨i, c₀, kind, ran⟩ := exists_ranOn_of_holds here holds
    obtain rfl := ran.on.held t _ c here holds works
    exact ran.on.current
  | question q p fits =>
    obtain ⟨taken, later, first, rfl, takes, -⟩ := took_after moves t c _ here trivial works
    obtain ⟨i, kind, ran⟩ := takes.begun
    exact (ran.append later).on.current

theorem not_connected_of_down (here : ((machine setup).after moves).session.tasks[t]? = some task)
    (calls : f.At task stage)
    (works : task.connection? = some c ∨ ((machine setup).after moves).session.current = some c)
    (down : (((machine setup).after moves).session.connection c).canWrite = false ∨
      (((machine setup).after moves).session.connection c).terminated = true) :
    ¬ ((machine setup).after moves).Connected := by
  rintro ⟨c', used, can, live⟩
  obtain rfl : c' = c := by
    rcases works with works | current
    · exact current_of_connection here calls works c' used
    · rw [current] at used
      cases used
      rfl
  rcases down with cannot | ended
  · rw [cannot] at can
    cases can
  · rw [ended] at live
    cases live

theorem not_connected_of_unused (unused : d.session.current = none) : ¬ d.Connected := by
  rintro ⟨c, used, -⟩
  rw [unused] at used
  cases used

/-- The registry does not have the feature for the document in the language that was named: then the
    server did not want the feature when the language was named, or the connection is out of use. -/
theorem not_wants_of_uncovered {language : String} {d' : Scene}
    (unadvertised : d.session.advertises f.advertised = false)
    (named : d.host.languageOf f.uri = language) (retains : d.session.Retains d'.session)
    (uncovered : d'.session.registry.covers f.method language f.uri = false) :
    ¬ d.Wants f ∨ ¬ d'.Connected := by
  rcases retains.registry with same | ⟨-, unused⟩
  · left
    rintro (advertised | covered)
    · rw [unadvertised] at advertised
      cases advertised
    · rw [named, ← same, uncovered] at covered
      cases covered
  · exact Or.inr (not_connected_of_unused unused)

/-- A step of a call accounts for the stage to which it leads. -/
theorem Account.step {stage' : Feature.Stage}
    (undisturbed : Undisturbed setup before between)
    (account : Account setup before between t f stage)
    (here : ((machine setup).after (before ++ between)).session.tasks[t]? = some task)
    (calls : f.At task stage)
    (goes : f.Goes ((machine setup).after (before ++ between)).host
      ((machine setup).after (before ++ between)).session task
      ((machine setup).after (before ++ between ++ [.act (.task t)])).session stage stage')
    (retains : ((machine setup).after (before ++ between)).session.Retains
      ((machine setup).after (before ++ between ++ [.act (.task t)])).session) :
    Account setup before (between ++ [.act (.task t)]) t f stage' := by
  have kept : Account setup before (between ++ [.act (.task t)]) t f stage :=
    account.concat (by rwa [← List.append_assoc])
  cases goes with
  | stays => exact kept
  | idle _ idle => exact absurd (undisturbed.running between [] (by simp)) idle
  | unused _ unused =>
    have cut : Meanwhile setup before between (¬ ·.Connected) :=
      Meanwhile.now (not_connected_of_unused unused)
    exact Or.inr (Or.inr (Or.inr (cut.append _)))
  | regarded known =>
    have regards : Meanwhile setup before between (·.Regards f) := Meanwhile.now known
    exact regards.append _
  | closed only closed =>
    have unregarded : Meanwhile setup before between (¬ ·.Regards f) := by
      apply Meanwhile.now
      intro regards
      rw [regards only] at closed
      cases closed
    exact Or.inr (Or.inr (Or.inl (unregarded.append _)))
  | advertised wanted => exact ⟨kept, (Meanwhile.now (Or.inl wanted)).append _⟩
  | unadvertised unwanted =>
    refine ⟨kept, ?_⟩
    rw [← List.append_assoc]
    exact retains.unadvertised unwanted
  | named =>
    -- The language is named now, and what the server wants is retained from this moment on.
    obtain ⟨regards, -⟩ := kept
    obtain ⟨-, unwanted⟩ := account
    refine ⟨regards, between, [.act (.task t)], rfl, unwanted, rfl, ?_⟩
    rwa [← List.append_assoc]
  | covered language wanted =>
    obtain ⟨regards, -⟩ := kept
    obtain ⟨-, asked⟩ := account
    refine ⟨regards, Meanwhile.append (asked.imp ?_) _⟩
    rintro d ⟨-, named, retained⟩
    exact wants_of_covered named retained wanted
  | uncovered language unwanted =>
    -- The registry is read later than the language: the two belong together only while it is retained.
    obtain ⟨-, first, rest, split, unadvertised, named, retained⟩ := account
    rcases not_wants_of_uncovered unadvertised named retained unwanted with unasked | cut
    · have unasked : Meanwhile setup before between (¬ ·.Wants f) := ⟨first, rest, split, unasked⟩
      exact Or.inr (Or.inl (unasked.append _))
    · have cut : Meanwhile setup before between (¬ ·.Connected) := Meanwhile.now cut
      exact Or.inr (Or.inr (Or.inr (cut.append _)))
  | failed _ c works down =>
    have cut : Meanwhile setup before between (¬ ·.Connected) :=
      Meanwhile.now (not_connected_of_down here calls works down)
    exact Or.inr (Or.inr (Or.inr (cut.append _)))
  | wrote c m said sent =>
    exact Or.inl ⟨between, [], c, m, rfl, said, sent⟩

/-- A call stays where it stands until its task takes a step. -/
theorem call_kept (other : move ≠ .act (.task t))
    (here : ((machine setup).after moves).session.tasks[t]? = some task) (calls : f.At task stage) :
    ((machine setup).after (moves ++ [move])).session.tasks[t]? = some task := by
  have covered := @covered_after setup moves
  rw [Machine.after_concat, step_machine]
  by_cases stepped : ∃ i, move = .act (.task i)
  · obtain ⟨i, rfl⟩ := stepped
    rcases step_task covered i with same | ⟨task', h, s₁, after, there, step, same⟩
    · rwa [same]
    · have apart : t ≠ i := by
        rintro rfl
        exact other rfl
      rw [same]
      exact step.other apart here
  · rcases (step_beside fun i same => stepped ⟨i, same⟩).cases with ⟨-, serves⟩ | ⟨aside, -⟩
    · obtain ⟨c, connection, registry, handlers, passing, diagnostics, -, -, same⟩ := serves
      rw [same]
      exact here
    · refine aside.kept here ?_
      rintro method params cancelled p rfl
      cases calls

theorem task_of_set {s : Session} {task' : Task}
    (stands : (s.setTask t task).tasks[t]? = some task') : task' = task := by
  rw [Session.setTask, List.getElem?_set_self'] at stands
  obtain ⟨_, _, same⟩ := Option.map_eq_some_iff.mp stands
  exact same.symm

theorem call_step (here : ((machine setup).after moves).session.tasks[t]? = some task)
    (calls : f.At task stage) :
    let d := (machine setup).after moves
    let d' := (machine setup).after (moves ++ [.act (.task t)])
    d.session.stepTask d.now d.host t = none ∧ d' = d ∨
    ∃ s₁ task' stage', Session.TaskStep d.now d.host d.session t task d.host s₁ task' ∧
      d'.session = s₁.setTask t task' ∧ d'.session.tasks[t]? = some task' ∧ f.At task' stage' ∧
      f.Goes d.host d.session task d'.session stage stage' := by
  intro d d'
  have covered : d.session.sync.Covered := covered_after moves
  have sound := (@locked_after setup moves).sound t task here
  have grounded := fun c => (@grounded_after setup moves).worked t task c here
  have made : d' = d.step (.act (.task t)) := Machine.after_concat _ _ _
  cases stepped : d.session.stepTask d.now d.host t with
  -- a task without a step stays where it is
  | none =>
    left
    refine ⟨rfl, ?_⟩
    rw [made]
    simp [step, Session.step, stepped, touch]
  | some result =>
    right
    obtain ⟨h', s'⟩ := result
    obtain ⟨old, s₂, new, there, taken, same⟩ := Session.stepTask_cases covered stepped
    obtain rfl : task = old := Option.some.inj (here.symm.trans there)
    obtain ⟨s₁, task', stage', rfl, rfl, calls', goes⟩ :=
      Feature.goes_of_stepTask sound grounded here calls stepped
    -- the place after the step is the one that the step tells
    have stands := taken.self there
    rw [← same] at stands
    obtain rfl := task_of_set stands
    have result : d'.session = s₁.setTask t new := by
      rw [made]
      simp [step, Session.step, stepped, touch]
    rw [result]
    exact ⟨s₂, new, stage', taken, same, stands, calls', goes⟩

/-- All along an undisturbed stretch a call is accounted for. -/
theorem call_accounted_after (called : ((machine setup).after before).session.tasks[t]? = some f.fresh)
    (undisturbed : Undisturbed setup before between) :
    ∃ task stage, ((machine setup).after (before ++ between)).session.tasks[t]? = some task ∧
      f.At task stage ∧ Account setup before between t f stage := by
  induction between using List.reverseRecOn with
  | nil =>
    rw [List.append_nil]
    exact ⟨_, _, called, Feature.at_fresh f, trivial⟩
  | append_singleton between move ih =>
    have earlier := undisturbed.of_append
    obtain ⟨task, stage, here, calls, account⟩ := ih earlier
    have other : ∀ c j, move ≠ .act (.handler c j) := by
      rintro c j rfl
      exact undisturbed.unhandled c j (by simp)
    obtain ⟨i, c, kind, ran⟩ := earlier.ran
    have retains := retains_step ran other
    have kept : Account setup before (between ++ [move]) t f stage :=
      account.concat (by rwa [← List.append_assoc])
    rw [← List.append_assoc]
    -- Only the task itself moves the call on; all others leave the account as it is.
    by_cases own : move = .act (.task t)
    · subst own
      rcases call_step here calls with ⟨-, same⟩ | ⟨s₁, task', stage', -, -, stands, calls', goes⟩
      · rw [same]
        exact ⟨task, stage, here, calls, kept⟩
      · exact ⟨task', stage', stands, calls',
          account.step earlier here calls goes retains⟩
    · exact ⟨task, stage, call_kept own here calls, calls, kept⟩

theorem account_of_past (called : ((machine setup).after before).session.tasks[t]? = some f.fresh)
    (undisturbed : Undisturbed setup before between)
    (here : ((machine setup).after (before ++ between)).session.tasks[t]? = some task)
    (past : f.At task .past) : Account setup before between t f .past := by
  obtain ⟨task', stage, here', calls, account⟩ := call_accounted_after called undisturbed
  obtain rfl : task = task' := Option.some.inj (here.symm.trans here')
  have none := (Feature.left_eq_zero_iff past).mpr rfl
  obtain rfl := (Feature.left_eq_zero_iff calls).mp none
  exact account

/-! ## What was written was wanted -/

/-- A message that is no answer and was added alone is the one that could be written. -/
theorem may_of_wrote {may : Message → Prop} {sent : List Message} {m : Message}
    (wrote : Wrote may sent (sent ++ [m])) (other : ∀ r, m ≠ .response r) : may m := by
  obtain ⟨first, answers, split, allowed⟩ := wrote
  have same := List.append_cancel_left split
  cases first with
  | none =>
    cases answers with
    | nil => cases same
    | cons r answers => exact absurd (List.cons.inj same).1 (other r)
  | some m' =>
    obtain rfl := (List.cons.inj same).1
    exact allowed m rfl

/-- A call writes its message when it has been decided to. -/
theorem decided_of_sent {m : Message}
    (here : ((machine setup).after moves).session.tasks[t]? = some task) (calls : f.At task stage)
    (said : f.Says m)
    (sent : (((machine setup).after (moves ++ [.act (.task t)])).session.connection c).sent =
      (((machine setup).after moves).session.connection c).sent ++ [m]) : stage = .decided := by
  have other : ∀ r, m ≠ .response r := by
    rintro r rfl
    cases f with
    | warning => cases said
    | question =>
      obtain ⟨_, same, -⟩ := said
      cases same
  rcases call_step here calls with ⟨-, same⟩ | ⟨s₁, task', -, step, result, -⟩
  · rw [same] at sent
    simp at sent
  · have wrote := step.talk.wrote c
    have kept : (((machine setup).after (moves ++ [.act (.task t)])).session.connection c).sent =
        (s₁.connection c).sent := by
      rw [result]
      rfl
    rw [← kept, sent] at wrote
    exact Feature.decided_of_says calls (may_of_wrote wrote other).1 said

theorem wants_of_said (called : ((machine setup).after before).session.tasks[t]? = some f.fresh)
    (undisturbed : Undisturbed setup before between) (said : Said setup before between t f) :
    Meanwhile setup before between (·.Wants f) ∧ Meanwhile setup before between (·.Regards f) := by
  obtain ⟨first, rest, c, m, rfl, message, sent⟩ := said
  obtain ⟨task, stage, here, calls, account⟩ := call_accounted_after called undisturbed.of_append
  obtain rfl := decided_of_sent here calls message sent
  obtain ⟨regards, wants⟩ := account
  exact ⟨wants.append _, regards.append _⟩

/-! ## A call comes to an end -/

/-- A call that waits neither for the lock nor for the writer comes nearer to its message with every step
    of its task. -/
theorem left_after (here : ((machine setup).after moves).session.tasks[t]? = some task)
    (calls : f.At task stage)
    (free : Feature.Locks task → ((machine setup).after moves).session.syncOwner = none)
    (taken : ∀ c, ((machine setup).after moves).session.busy c = false) (n : Nat) :
    let d := (machine setup).after moves
    let d' := (machine setup).after (moves ++ List.replicate n (.act (.task t)))
    ∃ task' stage', d'.session.tasks[t]? = some task' ∧ f.At task' stage' ∧
      Feature.left task' ≤ Feature.left task - n ∧ d'.session.state = d.session.state ∧
      (Feature.Locks task' → d'.session.syncOwner = none) ∧ ∀ c, d'.session.busy c = false := by
  intro d
  induction n with
  -- by the number of steps: each one that is possible brings the call nearer
  | zero =>
    exact ⟨task, stage, by simpa using here, calls, Nat.le_refl _, by simp [d], by simpa using free,
      by simpa using taken⟩
  | succ n ih =>
    obtain ⟨task', stage', here', calls', fewer, state, free', taken'⟩ := ih
    rw [List.replicate_succ', ← List.append_assoc]
    rcases call_step here' calls' with ⟨waits, same⟩ | ⟨s₁, new, stage₁, step, result, stands, calls₁, -⟩
    · -- A call that waits has written its message.
      have past : Feature.left task' = 0 := by
        by_contra more
        obtain ⟨result, steps⟩ := Feature.exists_step here' calls' free' taken' more
        rw [steps] at waits
        cases waits
      rw [same]
      exact ⟨task', stage', here', calls', by omega, state, free', taken'⟩
    · have sound := (@locked_after setup _).sound t task' here'
      have nearer := Feature.left_of_step calls' sound step
      refine ⟨new, stage₁, stands, calls₁, by omega, ?_, ?_, fun c => ?_⟩
      · rw [result]
        exact (Feature.state_of_step calls' step).trans state
      · intro locks
        obtain ⟨before, kept⟩ := Feature.locks_of_step step locks
        rw [result]
        exact kept.trans (free' before)
      · rw [result]
        exact (Feature.busy_of_step calls' step c).trans (taken' c)

/-- A call that waits neither for the lock nor for the writer is at its end after ten steps of its task,
    in a session that is still undisturbed. -/
theorem past_after (undisturbed : Undisturbed setup before between)
    (here : ((machine setup).after (before ++ between)).session.tasks[t]? = some task)
    (calls : f.At task stage)
    (free : Feature.Locks task →
      ((machine setup).after (before ++ between)).session.syncOwner = none)
    (taken : ∀ c, ((machine setup).after (before ++ between)).session.busy c = false) :
    let more := between ++ List.replicate 10 (.act (.task t))
    Undisturbed setup before more ∧
      ∃ task', ((machine setup).after (before ++ more)).session.tasks[t]? = some task' ∧
        f.At task' .past := by
  intro more
  have running := undisturbed.running between [] (by simp)
  constructor
  · constructor
    · intro first rest split
      rcases List.append_eq_append_iff.mp split with ⟨steps, rfl, own⟩ | ⟨later, earlier, -⟩
      · obtain ⟨-, same, -⟩ := List.append_eq_replicate_iff.mp own.symm
        obtain ⟨-, -, -, -, -, state, -⟩ := left_after here calls free taken steps.length
        rw [← same, List.append_assoc] at state
        exact state.trans running
      · exact undisturbed.running first later earlier
    · intro c j among
      rcases List.mem_append.mp among with earlier | own
      · exact undisturbed.unhandled c j earlier
      · cases List.eq_of_mem_replicate own
  -- ten steps are more than any call needs
  · obtain ⟨task', stage', here', calls', fewer, -⟩ := left_after here calls free taken 10
    have none : Feature.left task' = 0 := by
      have few := Feature.left_le task
      omega
    obtain rfl := (Feature.left_eq_zero_iff calls').mp none
    rw [← List.append_assoc]
    exact ⟨task', here', calls'⟩

/-! ## Exactly those who want it -/

theorem retains_after (undisturbed : Undisturbed setup before between) :
    ((machine setup).after before).session.Retains
      ((machine setup).after (before ++ between)).session := by
  induction between using List.reverseRecOn with
  | nil =>
    rw [List.append_nil]
    exact .refl _
  | append_singleton between move ih =>
    have earlier := undisturbed.of_append
    have other : ∀ c j, move ≠ .act (.handler c j) := by
      rintro c j rfl
      exact undisturbed.unhandled c j (by simp)
    obtain ⟨i, c, kind, ran⟩ := earlier.ran
    rw [← List.append_assoc]
    exact (ih earlier).trans (retains_step ran other)

/-- All along a stretch of a run a document is one that a feature is for, the host reports the same
    language for it, and the session has a connection. -/
structure Steady (setup : Setup) (before between : List Move) (f : Feature) : Prop where
  regards : ∀ first rest, between = first ++ rest → ((machine setup).after (before ++ first)).Regards f
  connected : ∀ first rest, between = first ++ rest → ((machine setup).after (before ++ first)).Connected
  language : ∀ first rest, between = first ++ rest →
    ((machine setup).after (before ++ first)).host.languageOf f.uri =
      ((machine setup).after before).host.languageOf f.uri

/-- All along a steady stretch the server wants a feature, or it never does. -/
theorem Steady.wants_iff {first rest : List Move} (steady : Steady setup before between f)
    (undisturbed : Undisturbed setup before between) (split : between = first ++ rest) :
    ((machine setup).after (before ++ first)).Wants f ↔ ((machine setup).after before).Wants f := by
  obtain ⟨c, used, -⟩ := steady.connected first rest split
  obtain ⟨registry, capabilities⟩ := (retains_after (split ▸ undisturbed).of_append).of_used used
  rw [Wants, Wants, Session.advertises, Session.advertises, registry, capabilities,
    steady.language first rest split]

/-- In a steady stretch a call that has come to its end has written its message exactly when the server
    wanted the feature. -/
theorem said_iff_wants (called : ((machine setup).after before).session.tasks[t]? = some f.fresh)
    (undisturbed : Undisturbed setup before between) (steady : Steady setup before between f)
    (here : ((machine setup).after (before ++ between)).session.tasks[t]? = some task)
    (past : f.At task .past) :
    Said setup before between t f ↔ ((machine setup).after before).Wants f := by
  constructor
  · intro said
    obtain ⟨⟨first, rest, split, wants⟩, -⟩ := wants_of_said called undisturbed said
    exact (steady.wants_iff undisturbed split).mp wants
  · intro wants
    rcases account_of_past called undisturbed here past with said | unwanted | unregarded | cut
    · exact said
    · obtain ⟨first, rest, split, unwanted⟩ := unwanted
      exact absurd ((steady.wants_iff undisturbed split).mpr wants) unwanted
    · obtain ⟨first, rest, split, unregarded⟩ := unregarded
      exact absurd (steady.regards first rest split) unregarded
    · obtain ⟨first, rest, split, cut⟩ := cut
      exact absurd (steady.connected first rest split) cut

theorem fresh_after_call (before : List Move) (f : Feature) :
    ((machine setup).after (before ++ [f.call])).session.tasks[
      ((machine setup).after before).session.tasks.length]? = some f.fresh := by
  have spawned : ((machine setup).after before).step f.call =
      ((machine setup).after before).spawn f.fresh := by
    cases f <;> rfl
  rw [Machine.after_concat, step_machine, spawned]
  simp [spawn, Session.spawn]

/-- What has happened to the registry in a run. -/
def registryOps (setup : Setup) (moves : List Move) : List RegistryOp :=
  (registryLog setup moves).filterMap RegistryEvent.op?

/-- **Features are for servers that want them.**  Whatever is done to a registry, it holds the
    registrations that have survived, in the order of their ids, each id once; a method is covered for a
    document exactly when one of them has the method and is for the document; and no document is selected
    by a pattern that cannot be read.

    A session is told of a coming save or asked for edits in a run with its turns in any order.  As long
    as the session is running and no handler of a message takes a step,

    * the registry is what the changes and teardowns of the run have made of it;
    * a message that the call has written was for a document that the feature is for, and the server wanted
      it at some moment of the call;
    * when the call is at its end it has written its message, or at some moment the server did not want it,
      or the document was none that the feature is for, or there was no connection to write on;
    * so when the document is open and the connection can be written on all along, and the host reports one
      language, it has written its message exactly when the server wanted the feature;
    * and the call does come to its end, with ten steps of its own, unless it waits for the lock on the
      documents or for the writer of a server that does not read. -/
theorem features_as_wanted :
    (∀ ops : List RegistryOp, (CapabilityRegistry.ofOps ops).Ordered ∧
      (∀ r, r ∈ (CapabilityRegistry.ofOps ops).registrations ↔ Survives ops r) ∧
      ∀ method languageId uri, (CapabilityRegistry.ofOps ops).covers method languageId uri = true ↔
        ∃ r, Survives ops r ∧ r.method = method ∧ r.For languageId uri) ∧
    (∀ (filter : DocumentFilter) (pattern languageId uri : String), filter.pattern = some pattern →
      Glob.parse? pattern {} = none → filter.selects languageId uri = false) ∧
    ∀ (setup : Setup) (before between : List Move) (f : Feature),
      let t := ((machine setup).after before).session.tasks.length
      let called := before ++ [f.call]
      let d := (machine setup).after (called ++ between)
      Undisturbed setup called between →
      d.session.registry = CapabilityRegistry.ofOps (registryOps setup (called ++ between)) ∧
      (Said setup called between t f →
        Meanwhile setup called between (·.Wants f) ∧ Meanwhile setup called between (·.Regards f)) ∧
      ∃ task stage, d.session.tasks[t]? = some task ∧ f.At task stage ∧
        (stage = .past →
          (Said setup called between t f ∨ Meanwhile setup called between (¬ ·.Wants f) ∨
            Meanwhile setup called between (¬ ·.Regards f) ∨
            Meanwhile setup called between (¬ ·.Connected)) ∧
          (Steady setup called between f →
            (Said setup called between t f ↔ ((machine setup).after called).Wants f))) ∧
        ((Feature.Locks task → d.session.syncOwner = none) → (∀ c, d.session.busy c = false) →
          let more := between ++ List.replicate 10 (.act (.task t))
          Undisturbed setup called more ∧
            ∃ task', ((machine setup).after (called ++ more)).session.tasks[t]? = some task' ∧
              f.At task' .past) := by
  refine ⟨?_, ?_, ?_⟩
  · intro ops
    exact ⟨CapabilityRegistry.ordered_ofOps ops, fun r => CapabilityRegistry.mem_ofOps_iff,
      fun method languageId uri => CapabilityRegistry.covers_ofOps_iff⟩
  · intro filter pattern languageId uri named unreadable
    rw [Bool.eq_false_iff, Ne, DocumentFilter.selects_iff]
    exact DocumentFilter.not_meets_of_unreadable named unreadable
  · intro setup before between f t called d undisturbed
    have fresh := @fresh_after_call setup before f
    refine ⟨?_, wants_of_said fresh undisturbed, ?_⟩
    · rw [registryOps, ← RegistryEvent.replay_eq_ofOps]
      exact (@accounts_after setup (called ++ between)).2.registry
    obtain ⟨task, stage, here, calls, account⟩ := call_accounted_after fresh undisturbed
    refine ⟨task, stage, here, calls, ?_, past_after undisturbed here calls⟩
    rintro rfl
    exact ⟨account, fun steady => said_iff_wants fresh undisturbed steady here calls⟩

/-- A server registers that it wants to be told of coming saves of documents of one language. -/
def registersWarnings : Request :=
  let options : Json := .obj [("documentSelector", .arr [.str "rust"])]
  let feature : Registration :=
    { id := "w1", method := "textDocument/willSave", registerOptions := some options }
  { id := .text "r1"
    method := "client/registerCapability"
    params := some (toJson ({ registrations := [feature] } : RegistrationParams)) }

/-- A document of the language is open, and the server has registered. -/
def watched : List Move :=
  let document : Document := ⟨"file:///a.rs", "rust", 1, "fn"⟩
  began ++ [.openDocument document, .event (.opened document)] ++ steps 2 3 ++
    [.feed 0 (Utf8.encodeString (Message.request registersWarnings).frame)] ++
    List.replicate 3 (.act (.reader 0)) ++ handledInTurn [0]

def comingSave : Feature :=
  .warning "file:///a.rs" .manual

/-- The server is told of the coming save, for it has registered. -/
theorem features_as_wanted_watched :
    let called := watched ++ [comingSave.call]
    let between := steps 3 10
    Undisturbed wholeTexts called between ∧ Steady wholeTexts called between comingSave ∧
      ((machine wholeTexts).after called).Wants comingSave ∧
      Said wholeTexts called between 3 comingSave := by
  intro called between
  -- one evaluation of the run serves all that is needed of it
  have known : ((machine wholeTexts).after watched).session.tasks.length = 3 ∧
      ((machine wholeTexts).after called).session.syncOwner = none ∧
      (∀ connection ∈ ((machine wholeTexts).after called).session.connections, connection.busy = false) ∧
      ((machine wholeTexts).after called).session.registry.covers "textDocument/willSave"
        (((machine wholeTexts).after called).host.languageOf "file:///a.rs") "file:///a.rs" = true ∧
      ∀ n ≤ 10, let d := (machine wholeTexts).after (called ++ steps 3 n)
        d.session.state = .running ∧ d.session.sync.isAnnounced "file:///a.rs" = true ∧
          d.session.current = some 0 ∧ (d.session.connection 0).canWrite = true ∧
          (d.session.connection 0).terminated = false ∧
          d.host.languageOf "file:///a.rs" = "rust" := by
    decide +kernel
  obtain ⟨number, free, taken, covered, moments⟩ := known
  have along : ∀ first rest, between = first ++ rest → ∃ n ≤ 10, first = steps 3 n := by
    intro first rest split
    obtain ⟨total, same, -⟩ := List.append_eq_replicate_iff.mp split.symm
    exact ⟨first.length, by omega, same⟩
  -- before any step nothing has happened in between
  have still : Undisturbed wholeTexts called [] := by
    constructor
    · intro first rest split
      obtain ⟨rfl, rfl⟩ := List.nil_eq_append_iff.mp split
      exact (moments 0 (by decide)).1
    · exact fun c j => List.not_mem_nil
  have steady : Steady wholeTexts called between comingSave := by
    constructor
    · intro first rest split
      obtain ⟨n, few, rfl⟩ := along first rest split
      exact fun _ => (moments n few).2.1
    · intro first rest split
      obtain ⟨n, few, rfl⟩ := along first rest split
      obtain ⟨-, -, used, can, live, -⟩ := moments n few
      exact ⟨0, used, can, live⟩
    · intro first rest split
      obtain ⟨n, few, rfl⟩ := along first rest split
      exact (moments n few).2.2.2.2.2.trans (moments 0 (by decide)).2.2.2.2.2.symm
  have wants : ((machine wholeTexts).after called).Wants comingSave := Or.inr covered
  have asked : called = watched ++ [comingSave.call] := rfl
  clear_value called
  have first := features_as_wanted.2.2 wholeTexts watched [] comingSave (asked ▸ still)
  simp only [number, ← asked, List.append_nil, List.nil_append] at first
  obtain ⟨-, -, task, stage, here, calls, -, ends⟩ := first
  obtain ⟨undisturbed, task', here', past⟩ := ends (fun _ => free) (Feature.busy_of_connections taken)
  have later := features_as_wanted.2.2 wholeTexts watched between comingSave (asked ▸ undisturbed)
  simp only [number, ← asked] at later
  obtain ⟨-, -, task₁, stage₁, here₁, calls₁, came, -⟩ := later
  obtain rfl : task' = task₁ := Option.some.inj (here'.symm.trans here₁)
  obtain rfl := (Feature.left_eq_zero_iff calls₁).mp ((Feature.left_eq_zero_iff past).mpr rfl)
  exact ⟨undisturbed, steady, wants, ((came rfl).2 steady).mpr wants⟩

end Scene

end LanguageClient
