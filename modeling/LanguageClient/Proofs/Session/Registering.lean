import LanguageClient.Proofs.Session.Retrying
import LanguageClient.Proofs.Session.Turns
/-!
# The order of registrations

Each request of the server is handled by a task of its own, so the order in which registrations take
effect is the order in which the handlers come to it.  `registryLog` is the list of what happened to the
registry in a run: requests for changes that were read, changes that handlers made, and teardowns that
took all away.

The registry is what the log makes of it, and the log has the change of each request at most once, and
exactly once when its handler has ended (`accounts_after`).  So the registry is what the requests make
of it in their order only as long as nothing is taken away meanwhile and no two requests for one id
change places.
-/

namespace LanguageClient

namespace RegistryEvent

/-- The change that a handler of a connection made, with the number of its job. -/
def turn? (c : Nat) : RegistryEvent → Option (Nat × RegistryChange)
  | made c' j change => if c' = c then some (j, change) else none
  | _ => none

/-- What an event says of an id, if it concerns the id: what is registered under it then, if
    anything. -/
def word (id : String) : RegistryEvent → Option (Option Registration)
  | wished .. => none
  | made _ _ change => change.word id
  | cleared => some none

variable {c : Nat} {id : String} {registry : CapabilityRegistry} {events : List RegistryEvent}

/-- What is registered under an id is what the last event that concerns it says. -/
theorem get?_replay (events : List RegistryEvent) : (replay events registry).get? id =
    ((events.filterMap (word id)).getLast?).getD (registry.get? id) := by
  induction events using List.reverseRecOn with
  | nil => rfl
  | append_singleton events event ih =>
    have last : (event.apply (replay events registry)).get? id =
        (event.word id).getD ((replay events registry).get? id) := by
      cases event with
      | wished => rfl
      | made _ _ change => exact change.get?_apply
      | cleared => rfl
    rw [replay, List.foldl_append, List.filterMap_append]
    refine last.trans ?_
    rw [ih]
    cases said : event.word id <;> simp [said]

theorem ordered_replay (events : List RegistryEvent) (ordered : registry.Ordered) :
    (replay events registry).Ordered := by
  induction events generalizing registry with
  | nil => exact ordered
  | cons event events ih =>
    refine @ih (event.apply registry) ?_
    cases event with
    | wished => exact ordered
    | made _ _ change => exact RegistryChange.ordered_apply change ordered
    | cleared => exact List.Pairwise.nil

/-- Where nothing is taken away and one connection only makes changes, the registry is what these
    changes make of it. -/
theorem replay_turns (kept : .cleared ∉ events)
    (alone : ∀ c' j change, .made c' j change ∈ events → c' = c) :
    replay events registry = RegistryChange.replay ((events.filterMap (turn? c)).map (·.2)) registry := by
  induction events generalizing registry with
  | nil => rfl
  | cons event events ih =>
    have rest := fun registry : CapabilityRegistry => @ih registry
      (fun among => kept (List.mem_cons_of_mem _ among))
      fun c' j change among => alone c' j change (List.mem_cons_of_mem _ among)
    cases event with
    | wished c' change => exact rest registry
    | made c' j change =>
      obtain rfl := alone c' j change List.mem_cons_self
      simpa [turn?, replay, RegistryChange.replay, RegistryEvent.apply] using
        rest (change.apply registry)
    | cleared => exact absurd List.mem_cons_self kept

/-- The changes of one job among those of its connection. -/
theorem filterMap_turn (events : List RegistryEvent) (c j : Nat) :
    (events.filterMap (turn? c)).filterMap (fun turn => if turn.1 = j then some turn.2 else none) =
      events.filterMap (madeBy? c j) := by
  rw [List.filterMap_filterMap]
  congr 1
  funext event
  cases event with
  | made c' j' change => by_cases same : c' = c <;> simp [turn?, madeBy?, same]
  | _ => rfl

end RegistryEvent

/-! ## Numbered changes -/

/-- The changes that the requests of some jobs ask for, each with the number of its job. -/
def numbered (posts : List (Request × JobPhase)) : List (Nat × RegistryChange) :=
  posts.zipIdx.filterMap fun (post, j) => post.1.registryChange?.map fun change => (j, change)

variable {posts : List (Request × JobPhase)} {post : Request × JobPhase}

theorem numbered_concat (posts : List (Request × JobPhase)) (post : Request × JobPhase) :
    numbered (posts ++ [post]) = numbered posts ++
      (post.1.registryChange?.map fun change => (posts.length, change)).toList := by
  simp only [numbered, List.zipIdx_append, List.filterMap_append]
  cases wish : post.1.registryChange? <;> simp [wish]

theorem lt_of_mem_numbered {turn : Nat × RegistryChange} (among : turn ∈ numbered posts) :
    turn.1 < posts.length := by
  obtain ⟨⟨post, j⟩, here, wish⟩ := List.mem_filterMap.mp among
  obtain ⟨change, -, rfl⟩ := Option.map_eq_some_iff.mp wish
  simpa using (List.mem_zipIdx here).2.1

theorem ascending_numbered (posts : List (Request × JobPhase)) :
    (numbered posts).Pairwise (·.1 < ·.1) := by
  induction posts using List.reverseRecOn with
  | nil => exact List.Pairwise.nil
  | append_singleton posts post ih =>
    rw [numbered_concat]
    refine List.pairwise_append.mpr ⟨ih, ?_, fun turn among last new => ?_⟩
    · cases post.1.registryChange? <;> simp
    · obtain ⟨change, -, rfl⟩ := Option.map_eq_some_iff.mp (Option.mem_toList.mp new)
      exact lt_of_mem_numbered among

theorem filterMap_numbered (posts : List (Request × JobPhase)) (j : Nat) :
    (numbered posts).filterMap (fun turn => if turn.1 = j then some turn.2 else none) =
      (posts[j]?.bind (·.1.registryChange?)).toList := by
  induction posts using List.reverseRecOn with
  | nil => rfl
  | append_singleton posts post ih =>
    rw [numbered_concat, List.filterMap_append, ih, List.getElem?_append]
    by_cases last : j = posts.length
    · subst last
      cases wish : post.1.registryChange? <;> simp [wish]
    · split
      · cases wish : post.1.registryChange? <;> simp [Ne.symm last]
      · rename_i outside
        rw [List.getElem?_singleton, if_neg (by omega), List.getElem?_eq_none (by omega)]
        cases wish : post.1.registryChange? <;> simp [Ne.symm last]

theorem map_numbered (posts : List (Request × JobPhase)) :
    (numbered posts).map (·.2) = posts.filterMap (·.1.registryChange?) := by
  induction posts using List.reverseRecOn with
  | nil => rfl
  | append_singleton posts post ih =>
    rw [numbered_concat, List.map_append, ih, List.filterMap_append]
    cases wish : post.1.registryChange? <;> simp [wish]

/-- Lists of numbered changes with the same changes for each number are the same up to their order. -/
theorem perm_of_filterMap {turns turns' : List (Nat × RegistryChange)}
    (same : ∀ j, turns.filterMap (fun turn => if turn.1 = j then some turn.2 else none) =
      turns'.filterMap (fun turn => if turn.1 = j then some turn.2 else none)) :
    turns.Perm turns' := by
  have count : ∀ (turns : List (Nat × RegistryChange)) (j : Nat) (change : RegistryChange),
      turns.count (j, change) =
        (turns.filterMap fun turn => if turn.1 = j then some turn.2 else none).count change := by
    intro turns j change
    induction turns with
    | nil => rfl
    | cons turn turns ih =>
      obtain ⟨j', change'⟩ := turn
      by_cases here : j' = j <;> simp [List.count_cons, here, ih]
  refine List.perm_iff_count.mpr fun turn => ?_
  rw [count, count, same]

/-! ## The log of a run -/

namespace Session

/-- The read loop of a connection holds no request, and the jobs of all requests have ended. -/
def AllServed (s : Session) (c : Nat) : Prop :=
  (s.connection c).inHand? = none ∧ ∀ job ∈ (s.connection c).jobs, job.phase = .ended

instance (s : Session) (c : Nat) : Decidable (s.AllServed c) :=
  inferInstanceAs (Decidable (_ ∧ _))

/-- A log accounts for the registry: it is what has happened to it, each request has the change made
    for it that it asks for as far as that is not due, and what was asked for was read. -/
structure Accounts (s : Session) (log : List RegistryEvent) : Prop where
  registry : s.registry = RegistryEvent.replay log {}
  made : ∀ c j, log.filterMap (·.madeBy? c j) ++ (s.handling c j).due = (s.handling c j).asked
  wishes : ∀ c, s.wishes c = log.filterMap (·.wishedOn? c)

variable {s s' : Session} {log events : List RegistryEvent} {c j : Nat} {files : FilesCapabilities}
  {may : JobTurns} {said : Nat → List (Request × Response)} {reads : Nat → Prop}

theorem Turns.accounts (turns : Turns files may said reads s events s') (accounts : s.Accounts log) :
    s'.Accounts (log ++ events) where
  registry := by
    rw [turns.registry, accounts.registry, RegistryEvent.replay, RegistryEvent.replay,
      RegistryEvent.replay, List.foldl_append]
  made c j := by
    rw [List.filterMap_append]
    exact (turns.handling c j).balanced (accounts.made c j)
  wishes c := by rw [turns.wishes, accounts.wishes, List.filterMap_append]

/-- The change of a job that has ended was made. -/
theorem Accounts.made_of_past (accounts : s.Accounts log) {job : Job} {change : RegistryChange}
    (here : (s.connection c).jobs[j]? = some job) (past : job.phase ≠ .spawned ∧ job.phase ≠ .running)
    (asks : job.request.registryChange? = some change) : .made c j change ∈ log := by
  have there : (s.connection c).posts[j]? = some (job.request, job.phase) := by
    simp [Connection.posts, here]
  have balanced := accounts.made c j
  rw [handling_eq there rfl, Handling.due_of_past past, List.append_nil] at balanced
  have among : change ∈ log.filterMap (·.madeBy? c j) := by
    rw [balanced]
    simp [Handling.asked, asks]
  obtain ⟨event, inLog, made⟩ := List.mem_filterMap.mp among
  cases event with
  | made c' j' change' =>
    obtain ⟨⟨rfl, rfl⟩, rfl⟩ := by simpa [RegistryEvent.madeBy?] using made
    exact inLog
  | _ => simp [RegistryEvent.madeBy?] at made

/-- What a job made is what its request asks for. -/
theorem Accounts.asked_of_made (accounts : s.Accounts log) {change : RegistryChange}
    (made : .made c j change ∈ log) : ∃ job, (s.connection c).jobs[j]? = some job ∧
      job.request.registryChange? = some change := by
  have among : change ∈ log.filterMap (·.madeBy? c j) :=
    List.mem_filterMap.mpr ⟨_, made, by simp [RegistryEvent.madeBy?]⟩
  have asked : change ∈ (s.handling c j).asked :=
    accounts.made c j ▸ List.mem_append_left _ among
  simp only [Handling.asked, handling, Connection.posts, List.getElem?_map, Option.mem_toList,
    Option.bind_eq_some_iff, Option.map_eq_some_iff] at asked
  obtain ⟨_, ⟨job, here, rfl⟩, asks⟩ := asked
  exact ⟨job, here, asks⟩

/-- No change is made twice. -/
theorem Accounts.made_once (accounts : s.Accounts log) (c j : Nat) :
    (log.filterMap (·.madeBy? c j)).length ≤ 1 := by
  have asked : (s.handling c j).asked.length ≤ 1 := by
    unfold Handling.asked
    cases (s.handling c j).job.bind (·.1.registryChange?) <;> simp
  rw [← accounts.made c j, List.length_append] at asked
  omega

/-- With all requests served, the changes of a connection were made in the order of the handlers. -/
theorem Accounts.perm_numbered (accounts : s.Accounts log) (rest : s.AllServed c) :
    (log.filterMap (RegistryEvent.turn? c)).Perm (numbered (s.connection c).posts) := by
  refine perm_of_filterMap fun j => ?_
  have idle : (s.handling c j).due = [] := by
    cases post : (s.connection c).posts[j]? with
    | none => rw [handling_eq post rfl]; rfl
    | some post' =>
      have ended : post'.2 = .ended := by
        obtain ⟨job, here, rfl⟩ := List.mem_map.mp (List.mem_of_getElem? post)
        exact rest.2 job here
      rw [handling_eq post rfl]
      exact Handling.due_of_past (by simp [ended]) _
  have made := accounts.made c j
  rw [idle, List.append_nil] at made
  rw [RegistryEvent.filterMap_turn, filterMap_numbered, made]
  rfl

/-- With all requests served, all that was asked for on a connection are the changes of its jobs. -/
theorem Accounts.map_numbered (accounts : s.Accounts log) (rest : s.AllServed c) :
    (numbered (s.connection c).posts).map (·.2) = log.filterMap (·.wishedOn? c) := by
  rw [← accounts.wishes, LanguageClient.map_numbered, Session.wishes, Connection.requests, rest.1]
  simp [List.filterMap_map]

end Session

namespace Scene

variable {setup : Setup} {moves : List Move}

/-- What happened to the registry in a run, and what was asked for, in order. -/
def registryLog (setup : Setup) (moves : List Move) : List RegistryEvent :=
  (machine setup).recorded registryEvents moves

/-- The handlers and the connections are as they have to be, and the log accounts for the registry. -/
theorem accounts_after (moves : List Move) :
    ((machine setup).after moves).session.Attended setup.options.files ∧
    ((machine setup).after moves).session.Accounts (registryLog setup moves) := by
  refine (machine setup).run_induction (fun moves d => d.session.Attended setup.options.files ∧
    d.session.Accounts (registryLog setup moves)) ?_ ?_ moves
  · refine ⟨⟨fun c j p waits => ?_, fun c => ?_⟩, rfl, fun c j => rfl, fun c => rfl⟩
    · simp [machine, Session.ofConfig, Session.handling] at waits
    · exact ⟨Or.inl rfl, by simp [machine, Session.ofConfig, Session.connection, Connection.posts],
        fun _ place => by simp [machine, Session.ofConfig, Session.connection] at place,
        fun _ place => by simp [machine, Session.ofConfig, Session.connection] at place⟩
  · rintro moves move ⟨attended, accounts⟩
    have turns := step_turns (covered_after moves) (worksBy_after moves).files attended move
    rw [Machine.after_concat, step_machine, registryLog, Machine.recorded_concat]
    exact ⟨turns.attended attended, turns.accounts accounts⟩

/-- **The order of registrations.**  The registry is what has happened to it: the changes that the
    handlers of requests have made, in the order in which they made them, and the teardowns that took
    all away.  Under each id there is what the last change that names it says, or nothing when a
    teardown came later.  Each request has its change made at most once, and it is what the request
    asks for; when its handler has ended, it was made.

    So when all requests that were read on a connection are done with, nothing was taken away since they
    came, no other connection has made a change meanwhile, and no two of them that name a common id
    have changed places, the registry is what the requests make of it in the order in which they were
    read. -/
theorem registrations_in_order (setup : Setup) (moves : List Move) :
    let s := ((machine setup).after moves).session
    let log := registryLog setup moves
    s.registry = RegistryEvent.replay log {} ∧
    (∀ id, s.registry.get? id = ((log.filterMap (RegistryEvent.word id)).getLast?).getD none) ∧
    (∀ c j, (log.filterMap (·.madeBy? c j)).length ≤ 1) ∧
    (∀ c j change, .made c j change ∈ log → ∃ job, (s.connection c).jobs[j]? = some job ∧
      job.request.registryChange? = some change) ∧
    (∀ c j job change, (s.connection c).jobs[j]? = some job →
      job.phase ≠ .spawned ∧ job.phase ≠ .running → job.request.registryChange? = some change →
      .made c j change ∈ log) ∧
    ∀ c before later, log = before ++ later → s.AllServed c → .cleared ∉ later →
      (∀ c' j change, .made c' j change ∈ later → c' = c) →
      (∀ j change, .made c j change ∉ before) →
      (later.filterMap (RegistryEvent.turn? c)).Pairwise
        (fun turn turn' => turn.1 < turn'.1 ∨ turn.2.Apart turn'.2) →
      s.registry = RegistryChange.replay (log.filterMap (·.wishedOn? c))
        (RegistryEvent.replay before {}) := by
  intro s log
  obtain ⟨-, accounts⟩ := @accounts_after setup moves
  refine ⟨accounts.registry, fun id => ?_, accounts.made_once, fun c j change => accounts.asked_of_made,
    fun c j job change => accounts.made_of_past, ?_⟩
  · rw [accounts.registry, RegistryEvent.get?_replay]
    rfl
  intro c before later split rest kept alone first agree
  have ordered : (RegistryEvent.replay before {}).Ordered :=
    RegistryEvent.ordered_replay before List.Pairwise.nil
  -- none of the changes of the connection was made before
  have turns : log.filterMap (RegistryEvent.turn? c) = later.filterMap (RegistryEvent.turn? c) := by
    have none : before.filterMap (RegistryEvent.turn? c) = [] := by
      refine List.filterMap_eq_nil_iff.mpr fun event among => ?_
      cases event with
      | made c' j change =>
        have other : c' ≠ c := by
          rintro rfl
          exact first j change among
        simp [RegistryEvent.turn?, other]
      | _ => rfl
    rw [split, List.filterMap_append, none, List.nil_append]
  have perm := accounts.perm_numbered rest
  rw [show registryLog setup moves = log from rfl, turns] at perm
  calc s.registry
      = RegistryEvent.replay later (RegistryEvent.replay before {}) := by
        rw [accounts.registry, show registryLog setup moves = before ++ later from split,
          RegistryEvent.replay, RegistryEvent.replay, RegistryEvent.replay, List.foldl_append]
    _ = RegistryChange.replay ((later.filterMap (RegistryEvent.turn? c)).map (·.2))
          (RegistryEvent.replay before {}) := RegistryEvent.replay_turns kept alone
    _ = RegistryChange.replay ((numbered (s.connection c).posts).map (·.2))
          (RegistryEvent.replay before {}) :=
        RegistryChange.replay_turns perm (ascending_numbered _)
          (agree.imp fun either => either.imp_left Nat.le_of_lt) ordered
    _ = _ := by rw [accounts.map_numbered rest]

/-- A feature that a server registers under an id. -/
def hovering (id : String) : Registration :=
  { id, method := "textDocument/hover" }

/-- A request that registers a feature under an id. -/
def registers (number id : String) : Request :=
  { id := .text number
    method := "client/registerCapability"
    params := some (toJson ({ registrations := [hovering id] } : RegistrationParams)) }

/-- A request that takes the feature under an id back. -/
def takesBack (number id : String) : Request :=
  let feature : Unregistration := { id, method := (hovering id).method }
  { id := .text number
    method := "client/unregisterCapability"
    params := some (toJson ({ unregistrations := [feature] } : UnregistrationParams)) }

/-- A session starts, and requests of its server come in, each of which gets a job. -/
def comingIn (requests : List Request) : List Move :=
  [.start] ++ goesOn 6 ++ requests.flatMap fun r =>
    .feed 0 (Utf8.encodeString (Message.request r).frame) :: List.replicate 3 (.act (.reader 0))

/-- Jobs are done from their beginning to their end, one after another. -/
def handledInTurn (jobs : List Nat) : List Move :=
  jobs.flatMap fun j => [.act (.job 0 j), .act (.handler 0 j), .act (.handler 0 j), .act (.job 0 j),
    .act (.job 0 j)]

/-- What a request that registers a feature asks for, and what one that takes it back. -/
def registersIt (id : String) : RegistryChange :=
  .register [hovering id]

@[inherit_doc registersIt]
def takesItBack (id : String) : RegistryChange :=
  .unregister [{ id, method := (hovering id).method }]

/-- The second of two requests, which is for another id, is handled first. -/
def crossing : List Move :=
  comingIn [registers "r1" "w1", registers "r2" "w2"] ++ handledInTurn [1, 0]

/-- What is registered is what the requests would have made of it in their order. -/
theorem registrations_in_order_crossing :
    let s := ((machine agreeing).after crossing).session
    let log := registryLog agreeing crossing
    s.AllServed 0 ∧
    log = [.wished 0 (registersIt "w1"), .wished 0 (registersIt "w2"), .made 0 1 (registersIt "w2"),
      .made 0 0 (registersIt "w1")] ∧
    s.registry = RegistryChange.replay [registersIt "w1", registersIt "w2"] {} ∧
    s.registry.registrations = [hovering "w1", hovering "w2"] := by
  -- one evaluation of the run serves all that is needed of it
  have known : ((machine agreeing).after crossing).session.AllServed 0 ∧
      registryLog agreeing crossing = [.wished 0 (registersIt "w1"), .wished 0 (registersIt "w2"),
        .made 0 1 (registersIt "w2"), .made 0 0 (registersIt "w1")] := by decide +kernel
  have apart : (registersIt "w2").Apart (registersIt "w1") := by
    intro id
    by_cases named : id = "w1"
    · exact Or.inl (by simp [registersIt, RegistryChange.word, hovering, named])
    · exact Or.inr (by simp [registersIt, RegistryChange.word, hovering, Ne.symm named])
  obtain ⟨-, -, -, -, -, order⟩ := registrations_in_order agreeing crossing
  simp only at order ⊢
  generalize ((machine agreeing).after crossing).session = s at *
  generalize registryLog agreeing crossing = log at *
  obtain ⟨rest, told⟩ := known
  -- all that was changed was changed on the one connection
  have alone : ∀ c' j change, .made c' j change ∈ log → c' = 0 := by
    rintro c' j change among
    simp only [told, List.mem_cons, RegistryEvent.made.injEq, reduceCtorEq, false_or,
      List.not_mem_nil, or_false] at among
    exact among.elim And.left And.left
  have turns : log.filterMap (RegistryEvent.turn? 0) = [(1, registersIt "w2"), (0, registersIt "w1")] := by
    rw [told]
    rfl
  have same := order 0 [] log (List.nil_append _).symm rest (by simp [told]) alone (by simp)
    (by simp [turns, apart])
  have wished : log.filterMap (·.wishedOn? 0) = [registersIt "w1", registersIt "w2"] := by
    rw [told]
    rfl
  rw [wished] at same
  exact ⟨rest, told, same, by rw [same]; decide⟩

/-- A request is overtaken by the next one, which is for the same id. -/
def overtaken : List Move :=
  comingIn [registers "r1" "w1", takesBack "r2" "w1"] ++ handledInTurn [1, 0]

/-- A request is handled, and then the start fails. -/
def tornDown : List Move :=
  comingIn [registers "r1" "w1"] ++ handledInTurn [0] ++ refused 1 "fatal" false ++ goesOn 8

/-- Handlers that overtake one another leave registered what the server has taken back, and a start
    that fails takes away what the server has registered. -/
theorem registrations_out_of_order :
    (let s := ((machine agreeing).after overtaken).session
     s.AllServed 0 ∧ s.wishes 0 = [registersIt "w1", takesItBack "w1"] ∧
      s.registry.registrations = [hovering "w1"] ∧
      (RegistryChange.replay (s.wishes 0) {}).registrations = []) ∧
    (let s := ((machine agreeing).after tornDown).session
     s.AllServed 0 ∧ s.wishes 0 = [registersIt "w1"] ∧ s.registry.registrations = [] ∧
      (RegistryChange.replay (s.wishes 0) {}).registrations = [hovering "w1"]) := by
  have first : ((machine agreeing).after overtaken).session.AllServed 0 ∧
      registryLog agreeing overtaken = [.wished 0 (registersIt "w1"), .wished 0 (takesItBack "w1"),
        .made 0 1 (takesItBack "w1"), .made 0 0 (registersIt "w1")] := by decide +kernel
  have second : ((machine agreeing).after tornDown).session.AllServed 0 ∧
      registryLog agreeing tornDown = [.wished 0 (registersIt "w1"), .made 0 0 (registersIt "w1"),
        .cleared] := by decide +kernel
  obtain ⟨-, accounts⟩ := @accounts_after agreeing overtaken
  obtain ⟨-, accounts'⟩ := @accounts_after agreeing tornDown
  simp only
  generalize ((machine agreeing).after overtaken).session = s at *
  generalize ((machine agreeing).after tornDown).session = s' at *
  rw [first.2] at accounts
  rw [second.2] at accounts'
  rw [accounts.wishes, accounts.registry, accounts'.wishes, accounts'.registry]
  exact ⟨⟨first.1, by decide, by decide, by decide⟩, second.1, by decide, by decide, by decide⟩

end Scene

end LanguageClient
