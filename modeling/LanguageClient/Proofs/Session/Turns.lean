import LanguageClient.Proofs.Session.Handling
import LanguageClient.Proofs.Session.Teardown
/-!
# Turns of the handlers

`Turns` says what a step makes of a session as far as the requests of the server are concerned: which
turns the jobs may take, what is answered, and what happens to the registry thereby: a request for a
change is read, a handler makes one, or a teardown takes all registrations away.  The steps of handlers,
jobs and read loops are looked at one by one, and every move is a turn (`Scene.step_turns`).
-/

namespace LanguageClient

namespace Session

variable {now : Nat} {h h' : Host} {s s' s₁ : Session} {t c j : Nat} {files : FilesCapabilities}

/-! ## Turns -/

/-- Which turns the jobs of a session may take, by connection and number. -/
abbrev JobTurns : Type :=
  Nat → Nat → Request → Option HandlerPhase → JobTurn → Prop

variable {may : JobTurns} {said : Nat → List (Request × Response)} {reads : Nat → Prop}

/-- The handlers and the connections are as they have to be: each handler is for a job that runs, and
    jobs are for those requests that a session has handlers for. -/
structure Attended (files : FilesCapabilities) (s : Session) : Prop where
  manned : ∀ c j, (s.handling c j).Manned
  admits : ∀ c, (s.connection c).Admits (requestMethods files)

/-- The changes of the registry that the requests on a connection have asked for so far. -/
def wishes (s : Session) (c : Nat) : List RegistryChange :=
  (s.connection c).requests.filterMap Request.registryChange?

/-- What a step makes of the registry, of each request of the server, of what was asked for and of what
    was answered, when it brings some events about.  Only the read loop of a connection goes on with a
    request that it passes on. -/
structure Turns (files : FilesCapabilities) (may : JobTurns) (said : Nat → List (Request × Response))
    (reads : Nat → Prop) (s : Session) (events : List RegistryEvent) (s' : Session) : Prop where
  registry : s'.registry = RegistryEvent.replay events s.registry
  handling : ∀ c j,
    (s.handling c j).Step (may c j) (events.filterMap (·.madeBy? c j)) (s'.handling c j)
  wishes : ∀ c, s'.wishes c = s.wishes c ++ events.filterMap (·.wishedOn? c)
  answers : ∀ c, (s'.connection c).answers = (s.connection c).answers ++ (said c).map (·.2)
  passing : ∀ c p, (s.connection c).passing? = some p →
    reads c ∨ (s'.connection c).passing? = some p
  admits : ∀ c, (s'.connection c).Admits (requestMethods files)

theorem Turns.attended {events : List RegistryEvent} (turns : Turns files may said reads s events s')
    (attended : s.Attended files) : s'.Attended files :=
  ⟨fun c j => (turns.handling c j).manned (attended.manned c j), turns.admits⟩

/-- A step that leaves the requests of the server alone may clear the registry. -/
theorem Turns.of_unasked {events : List RegistryEvent} (attended : s.Attended files)
    (same : s.Unasked files s') (silent : ∀ c, said c = [])
    (registry : s'.registry = RegistryEvent.replay events s.registry)
    (clear : ∀ event ∈ events, event = .cleared) : Turns files may said reads s events s' where
  registry := registry
  handling c j := by
    have none : events.filterMap (·.madeBy? c j) = [] := List.filterMap_eq_nil_iff.mpr
      fun event among => by rw [clear event among]; rfl
    rw [none, same.handling]
    exact .stayed _
  wishes c := by
    have none : events.filterMap (·.wishedOn? c) = [] := List.filterMap_eq_nil_iff.mpr
      fun event among => by rw [clear event among]; rfl
    rw [none, Session.wishes, (same.connection c).requests, Session.wishes, List.append_nil]
  answers c := by simp [(same.connection c).answers, silent]
  passing c _ passes := Or.inr ((same.connection c).passing.trans passes)
  admits c := (same.connection c).admits (attended.admits c)

/-! ## Handlers -/

/-- The events when the handler of a job makes some changes. -/
def madeAll (c j : Nat) (changes : List RegistryChange) : List RegistryEvent :=
  changes.map fun change => .made c j change

theorem madeBy_madeAll (changes : List RegistryChange) (c j c' j' : Nat) :
    (madeAll c j changes).filterMap (·.madeBy? c' j') =
      if c = c' ∧ j = j' then changes else [] := by
  by_cases same : c = c' ∧ j = j' <;>
    simp [madeAll, RegistryEvent.madeBy?, same, List.filterMap_map]

theorem wishedOn_madeAll (changes : List RegistryChange) (c j c' : Nat) :
    (madeAll c j changes).filterMap (·.wishedOn? c') = [] := by
  simp [madeAll, RegistryEvent.wishedOn?]

theorem replay_madeAll (changes : List RegistryChange) (c j : Nat) (registry : CapabilityRegistry) :
    RegistryEvent.replay (madeAll c j changes) registry = RegistryChange.replay changes registry := by
  simp only [RegistryEvent.replay, RegistryChange.replay, madeAll, List.foldl_map]
  rfl

/-- A connection with a job is one of those that were opened. -/
theorem inside_of_posts {post : Request × JobPhase} (there : (s.connection c).posts[j]? = some post) :
    c < s.connections.length := by
  by_contra outside
  simp [Session.connection, List.getElem?_eq_none (Nat.le_of_not_lt outside), Connection.posts] at there

/-- The job for a request goes on, and with it the handler, as they may. -/
theorem Turns.of_posted {connection : Connection} {r : Request} {q p : JobPhase}
    {w : Option HandlerPhase} {changes : List RegistryChange} (attended : s.Attended files)
    (there : (s.connection c).posts[j]? = some (r, q))
    (posted : (s.connection c).Posted (requestMethods files) j p connection)
    (answers : connection.answers = (s.connection c).answers ++ (said c).map (·.2))
    (silent : ∀ c', c' ≠ c → said c' = [])
    (connections : s'.connections = s.connections.set c connection)
    (handlers : ∀ key, s'.handlers.get? key = if key = (c, j) then w else s.handlers.get? key)
    (registry : s'.registry = RegistryChange.replay changes s.registry)
    (step : (s.handling c j).Step (may c j) changes ⟨some (r, p), w⟩) :
    Turns files may said reads s (madeAll c j changes) s' := by
  have here : s'.connection c = connection := by
    simp [Session.connection, connections, inside_of_posts there]
  have apart : ∀ c', c' ≠ c → (s.connection c').Unasked (requestMethods files) (s'.connection c') :=
    fun c' other => Unasked.of_ne other connections
  refine ⟨registry.trans (replay_madeAll ..).symm, fun c' j' => ?_, fun c' => ?_, fun c' => ?_,
    fun c' q passes => Or.inr (Eq.trans ?_ passes), fun c' => ?_⟩
  -- at this place the handler makes the changes it makes, at all others it stands still
  · rw [madeBy_madeAll]
    by_cases same : c = c' ∧ j = j'
    · obtain ⟨rfl, rfl⟩ := same
      rw [if_pos ⟨rfl, rfl⟩]
      have post : (s'.connection c).posts[j]? = some (r, p) := by
        rw [here, posted.posts, List.getElem?_modify, there]
        simp
      rwa [handling_eq post ((handlers _).trans (if_pos rfl))]
    · rw [if_neg same]
      have post : (s'.connection c').posts[j']? = (s.connection c').posts[j']? := by
        by_cases same' : c' = c
        · subst same'
          have other : j ≠ j' := fun same' => same ⟨rfl, same'⟩
          rw [here, posted.posts, List.getElem?_modify]
          simp [other]
        · rw [(apart c' same').posts]
      have kept : s'.handling c' j' = s.handling c' j' := by
        refine handling_congr post ((handlers _).trans (if_neg fun key => same ?_))
        exact ⟨(Prod.mk.inj key).1.symm, (Prod.mk.inj key).2.symm⟩
      rw [kept]
      exact .stayed _
  -- what is wished on a connection comes of its requests, and a job adds none
  · rw [wishedOn_madeAll, List.append_nil, Session.wishes, Session.wishes]
    by_cases same : c' = c
    · subst same
      rw [here, posted.requests]
    · rw [(apart c' same).requests]
  · by_cases same : c' = c
    · subst same
      rw [here, answers]
    · simp [(apart c' same).answers, silent c' same]
  · by_cases same : c' = c
    · subst same
      rw [here, posted.passing]
    · exact (apart c' same).passing
  · by_cases same : c' = c
    · subst same
      rw [here]
      exact posted.admits (attended.admits c')
    · exact (apart c' same).admits (attended.admits c')

/-- A handler waits for something that comes to the same change. -/
theorem turns_parkHandler {r : Request} (attended : s.Attended files)
    (running : (s.connection c).posts[j]? = some (r, .running)) {p : HandlerPhase}
    (comes : may c j r (s.handlers.get? (c, j)) (.waits p))
    (same : p.registryChange?.toList = (s.handling c j).due) :
    Turns files may (fun _ => []) reads s [] (s.parkHandler c j p) := by
  have posted : (s.connection c).Posted (requestMethods files) j .running (s.connection c) := by
    refine ⟨?_, rfl, id⟩
    refine List.ext_getElem? fun i => ?_
    rw [List.getElem?_modify]
    by_cases here : j = i
    · subst here
      simp [running]
    · simp [here]
  have step : (s.handling c j).Step (may c j) [] ⟨some (r, .running), some p⟩ := by
    rw [handling_eq running rfl] at same ⊢
    exact .parked r _ p comes same
  refine .of_posted attended running posted (by simp) (fun _ _ => rfl) ?_ ?_ rfl step
  · exact (congrArg Session.connections (s.setConnection_connection c)).symm
  · intro key
    simp only [parkHandler, Table.get?_put, eq_comm]

/-- A handler makes the change that is due, and ends. -/
theorem turns_finishHandler {r : Request} (attended : s.Attended files)
    (running : (s.connection c).posts[j]? = some (r, .running)) {outcome : HandlerOutcome}
    (comes : may c j r (s.handlers.get? (c, j)) (.ends outcome))
    {changes : List RegistryChange} (due : (s.handling c j).due = changes) :
    Turns files may (fun _ => []) reads s (madeAll c j changes)
      ({ s with registry := RegistryChange.replay changes s.registry }.finishHandler c j outcome) := by
  have step : (s.handling c j).Step (may c j) changes ⟨some (r, .returned outcome), none⟩ := by
    rw [handling_eq running rfl] at due ⊢
    rw [← due]
    exact .finished r _ outcome comes
  refine .of_posted attended running (Connection.finishJob_posted running outcome)
    (List.append_nil _).symm (fun _ _ => rfl) rfl ?_ rfl step
  intro key
  simp only [finishHandler, onConnection, setConnection, Table.get?_erase, eq_comm]

/-- A handler that has no change to make ends. -/
theorem turns_finishHandler_idle {r : Request} (attended : s.Attended files)
    (running : (s.connection c).posts[j]? = some (r, .running)) {outcome : HandlerOutcome}
    (comes : may c j r (s.handlers.get? (c, j)) (.ends outcome))
    (idle : (s.handling c j).due = []) :
    Turns files may (fun _ => []) reads s [] (s.finishHandler c j outcome) :=
  turns_finishHandler attended running comes idle

/-- A handler whose parameters can be read goes on with them, and ends otherwise. -/
theorem turns_withParams {α : Type} {r : Request} {params : Except ClientError α} {go : α → Session}
    (attended : s.Attended files) (running : (s.connection c).posts[j]? = some (r, .running))
    (goes : ∀ a, params = .ok a → Turns files may (fun _ => []) reads s [] (go a))
    (idle : ∀ e, params = .error e → may c j r (s.handlers.get? (c, j)) (.ends (.failed e)) ∧
      (s.handling c j).due = []) :
    Turns files may (fun _ => []) reads s [] (s.withParams c j params go) := by
  cases params with
  | ok a => exact goes a rfl
  | error e => exact turns_finishHandler_idle attended running (idle e rfl).1 (idle e rfl).2

/-- A handler that begins has no change to make yet. -/
theorem turns_beginHandler {r : Request} (attended : s.Attended files)
    (running : (s.connection c).posts[j]? = some (r, .running))
    (fresh : s.handlers.get? (c, j) = none)
    (comes : ∀ v, Begins h s r v → may c j r (s.handlers.get? (c, j)) v) :
    Turns files may (fun _ => []) reads s [] (s.beginHandler h c j r).2 := by
  have due : (s.handling c j).due = r.registryChange?.toList := by rw [handling_eq running fresh]; rfl
  -- a handler that ends at once leaves the registry alone
  have ends : r.registryChange? = none → ∀ outcome, Begins h s r (.ends outcome) →
      Turns files may (fun _ => []) reads s [] (s.finishHandler c j outcome) :=
    fun idle outcome begins =>
      turns_finishHandler_idle attended running (comes _ begins) (by rw [due, idle]; rfl)
  have parks : ∀ p : HandlerPhase, Begins h s r (.waits p) → p.registryChange? = r.registryChange? →
      Turns files may (fun _ => []) reads s [] (s.parkHandler c j p) :=
    fun p begins same => turns_parkHandler attended running (comes _ begins) (by rw [due, same])
  have unread : ∀ e, (r.AsksForFiles → s.state = .running) → r.registryChange? = none →
      may c j r (s.handlers.get? (c, j)) (.ends (.failed e)) ∧ (s.handling c j).due = [] :=
    fun e runs idle => ⟨comes _ (.failed e runs), by rw [due, idle]; rfl⟩
  unfold beginHandler
  split
  · rename_i named
    have other : ¬ r.AsksForFiles := by simp [Request.AsksForFiles, named, FileService.listMethod,
      FileService.contentMethod]
    refine turns_withParams attended running (fun params read => parks _ (.waiting _ other id) ?_)
      fun e unread' => unread e (fun asks => absurd asks other) ?_
    · simp [Request.registryChange?, named, read, HandlerPhase.registryChange?, Except.toOption]
    · simp [Request.registryChange?, named, unread', Except.toOption]
  · rename_i named
    have other : ¬ r.AsksForFiles := by simp [Request.AsksForFiles, named, FileService.listMethod,
      FileService.contentMethod]
    refine turns_withParams attended running (fun params read => parks _ (.waiting _ other id) ?_)
      fun e unread' => unread e (fun asks => absurd asks other) ?_
    · simp [Request.registryChange?, named, read, HandlerPhase.registryChange?, Except.toOption]
    · simp [Request.registryChange?, named, unread', Except.toOption]
  · rename_i named
    exact ends (by simp [Request.registryChange?, named]) _ (.answered _ (by
      simp [Request.AsksForFiles, named, FileService.listMethod, FileService.contentMethod]))
  · rename_i named
    exact parks _ (.waiting _ (by simp [Request.AsksForFiles, named, FileService.listMethod,
      FileService.contentMethod]) id)
      (by simp [Request.registryChange?, named, HandlerPhase.registryChange?])
  · rename_i named
    have idle : r.registryChange? = none := by simp [Request.registryChange?, named]
    simp only [beginListing]
    split
    -- out of the running window the request is refused without a look at the host
    · rename_i other
      exact ends idle _ (.idle (Or.inl named) other)
    · rename_i runs
      have runs : s.state = .running := Decidable.of_not_not runs
      refine turns_withParams attended running (fun params read => ?_)
        fun e _ => unread e (fun _ => runs) idle
      split
      · exact parks _ (.listing _ named runs) (by rw [idle]; rfl)
      · exact ends idle _ (.failed _ fun _ => runs)
  · rename_i named
    have idle : r.registryChange? = none := by simp [Request.registryChange?, named]
    simp only [beginContent]
    split
    · rename_i other
      exact ends idle _ (.idle (Or.inr named) other)
    · rename_i runs
      have runs : s.state = .running := Decidable.of_not_not runs
      exact turns_withParams attended running
        (fun params read => parks _ (.looking params named runs read) (by rw [idle]; rfl))
        fun e _ => unread e (fun _ => runs) idle
  · rename_i listed looked
    exact ends (by simp [Request.registryChange?]) _ (.answered _ fun asks => asks.elim listed looked)

/-- A handler that goes on makes the change that it waited to make. -/
theorem turns_continueHandler {r : Request} {cancelled : Bool} {p : HandlerPhase}
    (attended : s.Attended files) (running : (s.connection c).posts[j]? = some (r, .running))
    (waits : s.handlers.get? (c, j) = some p)
    (comes : ∀ v, GoesOn h p v → may c j r (s.handlers.get? (c, j)) v)
    (step : s.continueHandler h c j cancelled p = some s') :
    Turns files may (fun _ => []) reads s (madeAll c j p.registryChange?.toList) s' := by
  have due : (s.handling c j).due = p.registryChange?.toList := by rw [handling_eq running waits]; rfl
  have ends : ∀ {outcome}, GoesOn h p (.ends outcome) → p.registryChange? = none →
      s.finishHandler c j outcome = s' →
      Turns files may (fun _ => []) reads s (madeAll c j p.registryChange?.toList) s' := by
    rintro outcome goes idle rfl
    rw [idle] at due ⊢
    exact turns_finishHandler_idle attended running (comes _ goes) due
  unfold continueHandler at step
  split at step
  · obtain rfl := Option.some.inj step
    exact turns_finishHandler attended running (comes _ (.done _ _ id)) due
  · obtain rfl := Option.some.inj step
    exact turns_finishHandler attended running (comes _ (.done _ _ id)) due
  · exact ends (.done _ _ id) rfl (Option.some.inj step)
  · simp at step
  · split at step
    · exact ends (.failed _ _) rfl (Option.some.inj step)
    · simp at step
  · rename_i uri
    -- an open document is handed over as it is; else the file is read, in a task of its own
    cases found : h.document? uri with
    | some d =>
      simp only [FileService.source, found] at step
      exact ends (.opened uri d found) rfl (Option.some.inj step)
    | none =>
      cases place : Uri.toPath? uri with
      | none =>
        simp only [FileService.source, found, place] at step
        exact ends (.failed _ _) rfl (Option.some.inj step)
      | some path =>
        simp only [FileService.source, found, place] at step
        obtain rfl := Option.some.inj step
        exact turns_parkHandler attended running (comes _ (.closed uri path found place)) due.symm
  · split at step
    · exact ends (.failed _ _) rfl (Option.some.inj step)
    · simp at step

/-- The turns that jobs may take when an actor takes a step: it is one job at most that goes on, and one
    handler at most that begins or goes on. -/
def jobTurns (h : Host) (s : Session) : Actor → JobTurns
  | .job c j, c', j', _, none, turn => (c' = c ∧ j' = j) ∧ turn = .advances
  | .handler c j, c', j', r, none, turn => (c' = c ∧ j' = j) ∧ Begins h s r turn
  | .handler c j, c', j', _, some p, turn => (c' = c ∧ j' = j) ∧ GoesOn h p turn
  | _, _, _, _, _, _ => False

/-- An actor is the read loop of a connection. -/
def readsBy (actor : Actor) (c : Nat) : Prop :=
  actor = .reader c

theorem turns_stepHandler (attended : s.Attended files)
    (step : s.stepHandler h c j = some (h', s')) :
    Turns files (s.jobTurns h (.handler c j)) (fun _ => []) reads s
      (madeAll c j ((s.handlers.get? (c, j)).bind HandlerPhase.registryChange?).toList) s' := by
  simp only [stepHandler, Option.bind_eq_bind] at step
  obtain ⟨job, here, step⟩ := Option.bind_eq_some_iff.mp step
  obtain ⟨_, runs, step⟩ := Option.bind_eq_some_iff.mp step
  have place : job.phase = .running := by simpa using runs
  have running : (s.connection c).posts[j]? = some (job.request, .running) := by
    simp [Connection.posts, here, place]
  split at step
  · rename_i fresh
    have begun : Turns files (s.jobTurns h (.handler c j)) (fun _ => []) reads s []
        (s.beginHandler h c j job.request).2 := by
      refine turns_beginHandler attended running fresh fun v begins => ?_
      rw [fresh]
      exact ⟨⟨rfl, rfl⟩, begins⟩
    have same : s.beginHandler h c j job.request = (h', s') := Option.some.inj step
    rw [same] at begun
    rwa [fresh]
  · rename_i p waits
    obtain ⟨s₁, continued, same⟩ := Option.bind_eq_some_iff.mp step
    obtain ⟨rfl, rfl⟩ := by simpa using same
    rw [waits]
    refine turns_continueHandler attended running waits (fun v goes => ?_) continued
    rw [waits]
    exact ⟨⟨rfl, rfl⟩, goes⟩

/-- The turns that jobs may take when work on files is done: one handler goes on with it. -/
def filesTurns (h : Host) (c j : Nat) : JobTurns :=
  fun c' j' _ w turn => (c' = c ∧ j' = j) ∧ ∃ p, w = some p ∧ Gets h p turn

theorem turns_finishFiles (attended : s.Attended files) (step : s.finishFiles h c j = some s') :
    Turns files (filesTurns h c j) (fun _ => []) reads s [] s' := by
  have ends : ∀ {p outcome}, s.handlers.get? (c, j) = some p → Gets h p (.ends outcome) →
      p.registryChange? = none →
      Turns files (filesTurns h c j) (fun _ => []) reads s [] (s.finishHandler c j outcome) := by
    intro p outcome waits gets idle
    obtain ⟨r, running⟩ := attended.manned c j p waits
    refine turns_finishHandler_idle attended running ⟨⟨rfl, rfl⟩, p, waits, gets⟩ ?_
    rw [handling_eq running waits]
    exact congrArg Option.toList idle
  rcases finishFiles_cases step with ⟨base, waits, rfl⟩ | ⟨uri, path, waits, rfl⟩
  · cases found : h.listFiles base fun _ => false with
    | ok paths => exact ends waits (.listed base paths found) rfl
    | error e => exact ends waits (.failed _ e) rfl
  · rw [FileService.diskItem]
    cases found : h.fileText path with
    | ok text => exact ends waits (.read uri path text found) rfl
    | error e => exact ends waits (.failed _ e) rfl

/-! ## The read loop and the jobs -/

/-- The events when a request that asks for some changes was read on a connection. -/
def wishedAll (c : Nat) (changes : List RegistryChange) : List RegistryEvent :=
  changes.map fun change => .wished c change

theorem madeBy_wishedAll (changes : List RegistryChange) (c c' j' : Nat) :
    (wishedAll c changes).filterMap (·.madeBy? c' j') = [] := by
  simp [wishedAll, RegistryEvent.madeBy?]

theorem wishedOn_wishedAll (changes : List RegistryChange) (c c' : Nat) :
    (wishedAll c changes).filterMap (·.wishedOn? c') = if c = c' then changes else [] := by
  by_cases same : c = c' <;> simp [wishedAll, RegistryEvent.wishedOn?, same, List.filterMap_map]

theorem replay_wishedAll (changes : List RegistryChange) (c : Nat) (registry : CapabilityRegistry) :
    RegistryEvent.replay (wishedAll c changes) registry = registry := by
  induction changes with
  | nil => rfl
  | cons change changes ih => exact ih

/-- Every session handles the requests that change what is registered. -/
theorem registryChange?_method {r : Request} (files : FilesCapabilities)
    (asks : r.registryChange?.isSome) : r.method ∈ requestMethods files := by
  unfold Request.registryChange? at asks
  split at asks
  · rename_i named
    simp [named, requestMethods]
  · rename_i named
    simp [named, requestMethods]
  · simp at asks

/-- What is answered on a connection when an actor takes a step, each answer with its request. -/
def replies (s : Session) : Actor → Nat → List (Request × Response)
  | .reader c, c' => if c' = c then (s.connection c).refusal?.toList else []
  | .job c j, c' => if c' = c then ((s.connection c).reply? j).toList else []
  | _, _ => []

/-- A read loop goes on with a request that it takes, or with none, and with the one in its hand. -/
theorem Turns.of_intake {connection : Connection} {taken : Option Request}
    (attended : s.Attended files) (inside : c < s.connections.length)
    (intake : Connection.Intake taken (s.connection c) connection)
    (answers : connection.answers = (s.connection c).answers ++ (said c).map (·.2))
    (silent : ∀ c', c' ≠ c → said c' = [])
    (passing : ∀ p, (s.connection c).passing? = some p → reads c ∨ connection.passing? = some p)
    (admits : connection.Admits (requestMethods files)) :
    Turns files may said reads s (wishedAll c (taken.bind Request.registryChange?).toList)
      (s.setConnection c connection) := by
  have here : (s.setConnection c connection).connection c = connection := by
    simp [Session.connection, setConnection, inside]
  have apart : ∀ c', c' ≠ c → (s.connection c').Unasked (requestMethods files)
      ((s.setConnection c connection).connection c') := fun c' other => Unasked.of_ne other rfl
  refine ⟨(replay_wishedAll ..).symm, fun c' j' => ?_, fun c' => ?_, fun c' => ?_,
    fun c' p passes => ?_, fun c' => ?_⟩
  · rw [madeBy_wishedAll]
    by_cases same : c' = c
    · subst same
      have kept : connection.posts[j']? = (s.connection c').posts[j']? →
          (s.handling c' j').Step (may c' j') [] ((s.setConnection c' connection).handling c' j') := by
        intro post
        have same : (s.setConnection c' connection).handling c' j' = s.handling c' j' :=
          handling_congr (by rw [here, post]) rfl
        rw [same]
        exact .stayed _
      cases intake with
      -- the loop takes nothing new but by admitting it
      | passed _ posts | read _ _ _ posts | refused _ _ _ _ posts => exact kept (by rw [posts])
      | admitted r unread held posts =>
        by_cases last : j' = (s.connection c').posts.length
        · -- a job that is new has no handler yet
          have absent : (s.connection c').posts[j']? = none := List.getElem?_eq_none (Nat.le_of_eq last.symm)
          have fresh : s.handlers.get? (c', j') = none := by
            cases waits : s.handlers.get? (c', j') with
            | none => rfl
            | some p =>
              obtain ⟨r, running⟩ := attended.manned c' j' p waits
              simp [Session.handling, absent] at running
          have post : ((s.setConnection c' connection).connection c').posts[j']? =
              some (r, .spawned) := by simp [here, posts, last]
          rw [handling_eq absent fresh, handling_eq post fresh]
          exact .arrived r
        · refine kept ?_
          rw [posts, List.getElem?_append]
          split
          · rfl
          · rw [List.getElem?_singleton, if_neg (by omega), List.getElem?_eq_none (by omega)]
    · have kept : (s.setConnection c connection).handling c' j' = s.handling c' j' :=
        handling_congr (by rw [(apart c' same).posts]) rfl
      rw [kept]
      exact .stayed _
  · rw [wishedOn_wishedAll]
    by_cases same : c = c'
    · subst same
      rw [if_pos rfl, Session.wishes, here]
      exact intake.requests (attended.admits c) fun r => registryChange?_method files
    · rw [if_neg same, List.append_nil, Session.wishes, (apart c' (Ne.symm same)).requests, Session.wishes]
  · by_cases same : c' = c
    · subst same
      rw [here, answers]
    · simp [(apart c' same).answers, silent c' same]
  · by_cases same : c' = c
    · subst same
      rw [here]
      exact passing p passes
    · exact Or.inr ((apart c' same).passing.trans passes)
  · by_cases same : c' = c
    · subst same
      rw [here]
      exact admits
    · exact (apart c' same).admits (attended.admits c')

theorem turns_stepRead {connection : Connection} (attended : s.Attended files)
    (inside : c < s.connections.length) (read : (s.connection c).stepRead = some connection) :
    Turns files may (s.replies (.reader c)) (readsBy (.reader c)) s
      (wishedAll c ((s.connection c).reads?.bind Request.registryChange?).toList)
      (s.setConnection c connection) := by
  refine .of_intake attended inside (Connection.stepRead_intake read).1 ?_
    (fun c' other => by simp [replies, other]) (fun _ _ => Or.inl rfl)
    (Connection.stepRead_admits read (attended.admits c))
  rw [Connection.stepRead_answers read]
  simp only [replies, if_true]
  cases (s.connection c).refusal? <;> rfl

/-- A read loop that goes on has no request in its hand, and answers none. -/
theorem turns_readOn {connection : Connection} (attended : s.Attended files)
    (inside : c < s.connections.length) (read : (s.connection c).readOn = some connection) :
    Turns files may (fun _ => []) reads s
      (wishedAll c ((s.connection c).readsOn?.bind Request.registryChange?).toList)
      (s.setConnection c connection) := by
  refine .of_intake attended inside (Connection.readOn_intake read).1 ?_ (fun _ _ => rfl)
    (fun p passes => ?_) (Connection.readOn_admits read (attended.admits c))
  · rw [Connection.readOn_answers read]
    exact (List.append_nil _).symm
  · have place := (Connection.readOn_cases read).1
    simp [Connection.passing?, place] at passes

theorem unasked_stepNotification (s : Session) (h : Host) (c : Nat) (n : Notification) :
    s.Unasked files (s.stepNotification h c n).2 := by
  have ends : ∀ {s' : Session}, s'.handlers = s.handlers →
      s'.connections = (s.onConnection c (·.finishHandling)).connections → s.Unasked files s' :=
    fun handlers connections =>
      .of_set (s.connection c).unasked_finishHandling handlers connections
  unfold stepNotification
  split
  · split
    · exact ends rfl rfl
    · split
      · exact .of_eq rfl rfl
      · exact ends rfl rfl
  · exact ends rfl rfl
  · exact ends rfl rfl
  · exact ends rfl rfl

theorem turns_stepJob {connection : Connection} (attended : s.Attended files)
    (stepped : (s.connection c).stepJob j = some connection) :
    Turns files (s.jobTurns h (.job c j)) (s.replies (.job c j)) reads s []
      (s.setConnection c connection) := by
  obtain ⟨r, p, p', there, posted, next, answers⟩ := Connection.stepJob_posted stepped
  -- the job does not run, so no handler waits
  have idle : s.handlers.get? (c, j) = none := by
    cases waits : s.handlers.get? (c, j) with
    | none => rfl
    | some phase =>
      obtain ⟨r', running⟩ := attended.manned c j phase waits
      obtain ⟨-, rfl⟩ : r = r' ∧ p = .running := by simpa [handling, there] using running
      cases next
  have step : (s.handling c j).Step (s.jobTurns h (.job c j) c j) [] ⟨some (r, p'), none⟩ := by
    rw [handling_eq there idle]
    by_cases start : p = .spawned
    · subst start
      cases next
      exact .begun r ⟨⟨rfl, rfl⟩, rfl⟩
    · exact .answered r p p' ⟨⟨rfl, rfl⟩, rfl⟩ next start
  have handlers : ∀ key, (s.setConnection c connection).handlers.get? key =
      if key = (c, j) then none else s.handlers.get? key := by
    intro key
    by_cases here : key = (c, j)
    · rw [if_pos here, here]
      exact idle
    · rw [if_neg here]
      rfl
  refine .of_posted attended there posted ?_ (fun c' other => by simp [replies, other]) rfl handlers
    rfl step
  rw [answers]
  simp only [replies, if_true]
  cases (s.connection c).reply? j <;> rfl

/-- What an actor brings about with a step. -/
def registryEvents (s : Session) : Actor → List RegistryEvent
  | .reader c => wishedAll c ((s.connection c).reads?.bind Request.registryChange?).toList
  | .readOn c => wishedAll c ((s.connection c).readsOn?.bind Request.registryChange?).toList
  | .handler c j => madeAll c j ((s.handlers.get? (c, j)).bind HandlerPhase.registryChange?).toList
  | .task t => if (s.tasks[t]?).any Task.clearsRegistry then [.cleared] else []
  | .job .. => []

theorem turns_step (covered : s.sync.Covered) (serves : s.options.files = files)
    (attended : s.Attended files) {actor : Actor} (step : s.step now h actor = some (h', s')) :
    Turns files (s.jobTurns h actor) (s.replies actor) (readsBy actor) s (s.registryEvents actor) s' := by
  cases actor with
  | task t =>
    obtain ⟨task, s₁, task', here, taken, rfl⟩ := stepTask_cases covered step
    have spares := taken.spares serves
    refine .of_unasked attended (spares.unasked.keeps rfl rfl) (fun _ => rfl)
      (spares.registry.trans ?_) ?_
    · by_cases clears : task.clearsRegistry <;> simp [registryEvents, here, clears] <;> rfl
    · by_cases clears : task.clearsRegistry <;> simp [registryEvents, here, clears]
  | reader c =>
    simp only [Session.step] at step
    split at step
    · rename_i inside
      simp only [stepReader] at step
      split at step
      -- a notification in hand is handled inline, before the next message
      · rename_i n place
        have unread : (s.connection c).reads? = none := by
          simp [Connection.reads?, Connection.readsOn?, place]
        have silent : (s.connection c).refusal? = none := by simp [Connection.refusal?, place]
        have noticed : s.Unasked files (s.stepNotification h c n).2 := s.unasked_stepNotification h c n
        have kept : (s.stepNotification h c n).2.registry = s.registry := registry_stepNotification c n
        rw [registryEvents, unread]
        have same : s.stepNotification h c n = (h', s') := Option.some.inj step
        rw [same] at noticed kept
        exact .of_unasked attended noticed (fun c' => by simp [replies, silent]) kept
          (by simp [wishedAll])
      · obtain ⟨connection, read, same⟩ := Option.map_eq_some_iff.mp step
        obtain ⟨-, rfl⟩ := Prod.mk.inj same
        exact turns_stepRead attended inside read
    · simp at step
  | readOn c =>
    simp only [Session.step] at step
    split at step
    · rename_i inside
      obtain ⟨connection, read, same⟩ := Option.map_eq_some_iff.mp step
      obtain ⟨-, rfl⟩ := Prod.mk.inj same
      exact turns_readOn attended inside read
    · simp at step
  | job c j =>
    obtain ⟨connection, stepped, same⟩ := Option.map_eq_some_iff.mp step
    obtain ⟨-, rfl⟩ := Prod.mk.inj same
    exact turns_stepJob attended stepped
  | handler c j => exact turns_stepHandler attended step

end Session

namespace Scene

variable {setup : Setup} {d : Scene}

/-- What a move brings about. -/
def registryEvents (d : Scene) : Move → List RegistryEvent
  | .act actor =>
    if (d.session.step d.now d.host actor).isSome then d.session.registryEvents actor else []
  | _ => []

/-- The turns that jobs may take with a move. -/
def jobTurns (d : Scene) : Move → Session.JobTurns
  | .act actor => d.session.jobTurns d.host actor
  | .finishFiles c j => Session.filesTurns d.host c j
  | _ => fun _ _ _ _ _ => False

/-- The read loop of a connection takes a step with a move. -/
def readsBy : Move → Nat → Prop
  | .act actor => Session.readsBy actor
  | _ => fun _ => False

/-- What is answered on a connection with a move, each answer with its request. -/
def replies (c : Nat) (d : Scene) : Move → List (Request × Response)
  | .act actor => d.session.replies actor c
  | _ => []

/-- Who waits answers nothing. -/
theorem replies_of_waiting {actor : Actor} (waits : d.session.step d.now d.host actor = none) (c : Nat) :
    d.session.replies actor c = [] := by
  cases actor with
  -- a refusal that waits is one that a busy writer holds up
  | reader c' =>
    have silent : (d.session.connection c').refusal? = none := by
      unfold Connection.refusal?
      split
      · rename_i r place
        rw [if_neg]
        intro ready
        have free : (d.session.connection c').busy = false := by simp_all [Connection.ready]
        have inside : c' < d.session.connections.length := by
          by_contra outside
          simp [Session.connection, List.getElem?_eq_none (Nat.le_of_not_lt outside)] at place
        simp [Session.step, inside, Session.stepReader, place, Connection.stepRead, free] at waits
      · rfl
    simp [Session.replies, silent]
  | job c' j =>
    have silent : (d.session.connection c').reply? j = none := by
      unfold Connection.reply?
      split
      · rename_i r response there
        obtain ⟨job, here, post⟩ := Option.map_eq_some_iff.mp
          ((List.getElem?_map ..).symm.trans there)
        obtain ⟨-, place⟩ := Prod.mk.inj post
        rw [if_neg]
        intro ready
        have free : (d.session.connection c').busy = false := by simp_all [Connection.ready]
        simp [Session.step, Connection.stepJob, here, place, free] at waits
      · rfl
    simp [Session.replies, silent]
  | _ => rfl

theorem step_turns {files : FilesCapabilities} (covered : d.session.sync.Covered)
    (serves : d.session.options.files = files) (attended : d.session.Attended files) (move : Move) :
    Session.Turns files (d.jobTurns move) (fun c => d.replies c move) (readsBy move)
      d.session (d.registryEvents move) (d.step move).session := by
  -- moves from outside change no handler and say nothing
  have quiet : ∀ {s' : Session} {may said reads}, (∀ c, said c = []) → d.session.Unasked files s' →
      s'.registry = d.session.registry → Session.Turns files may said reads d.session [] s' :=
    fun silent same registry => .of_unasked attended same silent registry (by simp)
  have stayed : ∀ {may said reads}, (∀ c, said c = []) →
      Session.Turns files may said reads d.session [] d.session :=
    fun silent => quiet silent (.of_eq rfl rfl) rfl
  have outside : ∀ {may reads} (c : Nat) (f : Connection → Connection),
      (d.session.connection c).Unasked (Session.requestMethods files) (f (d.session.connection c)) →
      Session.Turns files may (fun _ => []) reads d.session [] (d.session.onConnection c f) :=
    fun c f same => quiet (fun _ => rfl) (.of_set same rfl rfl) rfl
  cases move with
  | act actor =>
    simp only [registryEvents, step, replies, jobTurns, readsBy]
    cases stepped : d.session.step d.now d.host actor with
    | none => exact stayed (replies_of_waiting stepped)
    | some result => exact Session.turns_step covered serves attended stepped
  | finishFiles c j =>
    simp only [registryEvents, step, replies, jobTurns, readsBy]
    cases finished : d.session.finishFiles d.host c j with
    | none => exact stayed fun _ => rfl
    | some s' => exact Session.turns_finishFiles attended finished
  | fire t =>
    simp only [registryEvents, step, Session.cancelRequest]
    split
    · exact quiet (fun _ => rfl) (.of_eq rfl rfl) rfl
    · exact stayed fun _ => rfl
  | feed c octets => exact outside c (·.feed octets) (.of_eq rfl rfl rfl rfl)
  | hangUp c => exact outside c (·.hangUp) (.of_eq rfl rfl rfl rfl)
  | deafen c =>
    exact outside c (fun connection => { connection with peerGone := true }) (.of_eq rfl rfl rfl rfl)
  | stall c stalled =>
    exact outside c (fun connection => { connection with stalled }) (.of_eq rfl rfl rfl rfl)
  | _ => exact quiet (fun _ => rfl) (.of_eq rfl rfl) rfl

end Scene

end LanguageClient
