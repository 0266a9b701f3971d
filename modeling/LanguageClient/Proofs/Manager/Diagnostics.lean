import LanguageClient.Proofs.Manager.Ensemble
import LanguageClient.Proofs.Session.Coalescing
import LanguageClient.Proofs.Session.Publishing
/-!
# Diagnostics of several servers

The host keeps one list of diagnostics for each document, whichever server published it: what was
published last takes the place of what was there, and of two servers that publish for one document the
later one is heard (`later_server_heard`).  Each session keeps what its own server published last, and
hands all of it to the host, in the same order.  So the host has what was handed to it last
(`latest_publication_decides`), and the turns that the servers take matter only where two of them publish
for one document.

The account of a run is the list of what read loops did with diagnostics; a move adds to it what it does
(`Noted.step`).
-/

namespace LanguageClient

/-- Diagnostics that a server has published, by session and connection. -/
structure Publication where
  session : Nat
  connection : Nat
  params : PublishDiagnosticsParams
  deriving DecidableEq

namespace Publication

/-! ## Lists of publications -/

/-- What is there when the diagnostics of each publication have taken the place of those before. -/
def collect (ps : List Publication) : Table String (List Diagnostic) :=
  ps.foldl (fun t p => p.params.putInto t) []

def latest? (uri : String) (ps : List Publication) : Option Publication :=
  (ps.filter (·.params.uri = uri)).getLast?

def ofSession (i : Nat) (ps : List Publication) : List Publication :=
  ps.filter (·.session = i)

def ofConnection (i c : Nat) (ps : List Publication) : List Publication :=
  ps.filter fun p => p.session = i ∧ p.connection = c

/-- No document has publications of two servers. -/
def Exclusive (ps : List Publication) : Prop :=
  ∀ p ∈ ps, ∀ q ∈ ps, p.params.uri = q.params.uri → p.session = q.session

variable {ps ps' : List Publication} {p q : Publication} {uri : String} {i c : Nat}

theorem ofSession_concat (i : Nat) (ps : List Publication) (p : Publication) :
    ofSession i (ps ++ [p]) = if p.session = i then ofSession i ps ++ [p] else ofSession i ps := by
  by_cases own : p.session = i <;> simp [ofSession, own]

theorem ofConnection_concat (i c : Nat) (ps : List Publication) (p : Publication) :
    ofConnection i c (ps ++ [p]) = if p.session = i ∧ p.connection = c then ofConnection i c ps ++ [p]
      else ofConnection i c ps := by
  by_cases here : p.session = i ∧ p.connection = c <;> simp [ofConnection, here]

@[simp] theorem collect_nil : collect [] = [] := rfl

@[simp] theorem collect_concat (ps : List Publication) (p : Publication) :
    collect (ps ++ [p]) = p.params.putInto (collect ps) := by
  simp [collect]

theorem latest?_concat (uri : String) (ps : List Publication) (p : Publication) :
    latest? uri (ps ++ [p]) = if p.params.uri = uri then some p else latest? uri ps := by
  by_cases about : p.params.uri = uri <;> simp [latest?, about]

theorem nodup_keys_collect (ps : List Publication) : (collect ps).keys.Nodup := by
  induction ps using List.reverseRecOn with
  | nil => exact List.nodup_nil
  | append_singleton ps p ih =>
    rw [collect_concat]
    exact Table.nodup_keys_put ih _ _

/-- What is found under a URI is what was published for it last. -/
theorem get?_collect (ps : List Publication) (uri : String) :
    (collect ps).get? uri = (latest? uri ps).map (·.params.diagnostics) := by
  induction ps using List.reverseRecOn with
  | nil => rfl
  | append_singleton ps p ih =>
    rw [collect_concat, PublishDiagnosticsParams.putInto, Table.get?_put, latest?_concat, ih]
    split <;> rfl

theorem latest?_eq_some (last : latest? uri ps = some p) : p ∈ ps ∧ p.params.uri = uri := by
  simpa [latest?] using List.mem_of_getLast? last

theorem latest?_isSome (among : p ∈ ps) : (latest? p.params.uri ps).isSome := by
  rw [latest?, Option.isSome_iff_ne_none, Ne, List.getLast?_eq_none_iff]
  exact List.ne_nil_of_mem (List.mem_filter.mpr ⟨among, by simp⟩)

/-- The last publication for a document is also the last one of its own server. -/
theorem latest?_ofSession (last : latest? uri ps = some p) :
    latest? uri (ofSession p.session ps) = some p := by
  obtain ⟨before, split⟩ := List.getLast?_eq_some_iff.mp last
  rw [latest?, ofSession, List.filter_comm, split]
  simp

@[simp] theorem mem_ofSession : p ∈ ofSession i ps ↔ p ∈ ps ∧ p.session = i := by
  simp [ofSession]

/-- Publications in the order in which each server made them are the same, whatever the turns. -/
theorem mem_of_ofSession (same : ∀ i, ofSession i ps = ofSession i ps') (among : p ∈ ps) : p ∈ ps' := by
  have among : p ∈ ofSession p.session ps := mem_ofSession.mpr ⟨among, rfl⟩
  rw [same] at among
  exact (mem_ofSession.mp among).1

/-- Where each server keeps its order, and the same server is the last one to publish for a document, it is
    the same publication. -/
theorem latest?_congr (same : ∀ i, ofSession i ps = ofSession i ps')
    (server : (latest? uri ps).map (·.session) = (latest? uri ps').map (·.session)) :
    latest? uri ps = latest? uri ps' := by
  cases last : latest? uri ps with
  | none =>
    rw [last] at server
    exact (Option.map_eq_none_iff.mp server.symm).symm
  | some p =>
    rw [last] at server
    obtain ⟨p', last', session⟩ := Option.map_eq_some_iff.mp server.symm
    have session : p'.session = p.session := session
    have own := latest?_ofSession last
    rw [same, ← session, latest?_ofSession last'] at own
    rw [last', own]

/-- Where no document has publications of two servers, the turns do not matter. -/
theorem latest?_of_exclusive (same : ∀ i, ofSession i ps = ofSession i ps') (exclusive : Exclusive ps)
    (uri : String) : latest? uri ps = latest? uri ps' := by
  refine latest?_congr same ?_
  cases last : latest? uri ps with
  | none =>
    cases last' : latest? uri ps' with
    | none => rfl
    | some p' =>
      obtain ⟨among, rfl⟩ := latest?_eq_some last'
      have there := latest?_isSome (mem_of_ofSession (fun i => (same i).symm) among)
      simp [last] at there
  | some p =>
    obtain ⟨among, rfl⟩ := latest?_eq_some last
    obtain ⟨p', last'⟩ := Option.isSome_iff_exists.mp (latest?_isSome (mem_of_ofSession same among))
    obtain ⟨among', about⟩ := latest?_eq_some last'
    have back := mem_of_ofSession (fun i => (same i).symm) among'
    simp [last', exclusive p among p' back about.symm]

end Publication

/-! ## The account -/

/-- What read loops of sessions did with diagnostics, in order. -/
abbrev Postings := List (Nat × Publishing)

namespace Postings

/-- What was taken into sessions. -/
def taken (log : Postings) : List Publication :=
  log.filterMap fun
    | (i, .takes c params) => some ⟨i, c, params⟩
    | _ => none

/-- What was handed to the host. -/
def handed (log : Postings) : List Publication :=
  log.filterMap fun
    | (i, .hands c params) => some ⟨i, c, params⟩
    | _ => none

variable (log : Postings) (i c : Nat) (params : PublishDiagnosticsParams)

@[simp] theorem taken_takes : taken (log ++ [(i, .takes c params)]) = log.taken ++ [⟨i, c, params⟩] := by
  simp [taken]

@[simp] theorem taken_hands : taken (log ++ [(i, .hands c params)]) = log.taken := by
  simp [taken]

@[simp] theorem handed_takes : handed (log ++ [(i, .takes c params)]) = log.handed := by
  simp [handed]

@[simp] theorem handed_hands : handed (log ++ [(i, .hands c params)]) = log.handed ++ [⟨i, c, params⟩] := by
  simp [handed]

end Postings

open Publication

/-- Adding sessions to a manager takes none from elsewhere, and leaves the host as it is. -/
theorem Manager.foldl_add_cases (sessions : List Session) (m : Manager) :
    (sessions.foldl add m).host = m.host ∧
    ∀ s ∈ (sessions.foldl add m).sessions, s ∈ m.sessions ∨ s ∈ sessions := by
  induction sessions generalizing m with
  | nil => exact ⟨rfl, fun s among => Or.inl among⟩
  | cons s sessions ih =>
    obtain ⟨host, among⟩ := ih (m.add s)
    refine ⟨?_, fun s' here => ?_⟩
    · rw [List.foldl_cons, host, add]
      split <;> rfl
    · rcases among s' here with before | later
      · unfold add at before
        split at before
        · exact Or.inl before
        · rcases List.mem_append.mp before with before | new
          · exact Or.inl before
          · exact Or.inr (List.mem_cons.mpr (Or.inl (List.mem_singleton.mp new)))
      · exact Or.inr (List.mem_cons_of_mem s later)

namespace Session

variable {h h' : Host} {s s' : Session} {i : Nat} {log : Postings}

/-- A session keeps what its server published last, and on each connection all that it has taken but not
    handed to the host is what it is about to hand. -/
structure Noted (i : Nat) (log : Postings) (s : Session) : Prop where
  kept : s.diagnostics = collect (ofSession i log.taken)
  passing : ∀ c, ofConnection i c log.taken =
    ofConnection i c log.handed ++ ((s.passing.get? c).map (⟨i, c, ·⟩)).toList

/-- What other sessions do is no matter. -/
theorem Noted.other {j : Nat} (noted : s.Noted i log) (other : j ≠ i) (p : Publishing) :
    s.Noted i (log ++ [(j, p)]) := by
  cases p with
  | takes c params =>
    exact ⟨by simpa [ofSession_concat, other] using noted.kept, fun c => by
      simpa [ofConnection_concat, other] using noted.passing c⟩
  | hands c params =>
    exact ⟨by simpa using noted.kept, fun c => by
      simpa [ofConnection_concat, other] using noted.passing c⟩

/-- What is done with diagnostics is in the account. -/
theorem Publishes.noted {p? : Option Publishing} (step : Publishes h s p? h' s')
    (noted : s.Noted i log) : s'.Noted i (log ++ (p?.map (i, ·)).toList) := by
  cases step with
  | nothing _ _ same =>
    simp only [Option.map_none, Option.toList_none, List.append_nil]
    exact ⟨same.kept.trans noted.kept, fun c => by rw [same.passing]; exact noted.passing c⟩
  | took c params _ free kept passing =>
    refine ⟨?_, fun c' => ?_⟩
    · rw [kept, noted.kept]
      simp [ofSession_concat]
    · have before := noted.passing c'
      rw [passing, Table.get?_put]
      by_cases here : c = c'
      · subst here
        simpa [ofConnection_concat, free] using before
      · simpa [ofConnection_concat, here] using before
  | handed c params _ _ waiting collected kept passing =>
    refine ⟨?_, fun c' => ?_⟩
    · rw [kept, noted.kept]
      simp
    · have before := noted.passing c'
      rw [passing, Table.get?_erase]
      by_cases here : c = c'
      · subst here
        simpa [ofConnection_concat, waiting] using before
      · simpa [ofConnection_concat, here] using before

/-- The host has what was handed to it. -/
theorem Publishes.collects {p? : Option Publishing} (step : Publishes h s p? h' s')
    (collected : h.diagnostics = collect log.handed) :
    h'.diagnostics = collect (log ++ (p?.map (i, ·)).toList).handed := by
  cases step with
  | nothing _ _ same => simpa using same.collected.trans collected
  | took => simpa using collected
  | handed c params _ _ _ put =>
    rw [put, collected]
    simp

end Session

namespace Ensemble

variable {host : Host} {sessions : List Session} {d : Ensemble} {i : Nat} {s : Session}
  {log : Postings}

/-! ## Moves -/

/-- What a move does with diagnostics, and for which session. -/
def publishing? (d : Ensemble) : Move → Option (Nat × Publishing)
  | .session i move => ((d.scene i).publishing? move).map (i, ·)
  | _ => none

/-- What read loops did with diagnostics in a run. -/
def postings (host : Host) (sessions : List Session) (moves : List Move) : Postings :=
  (machine host sessions).recorded (fun d move => (d.publishing? move).toList) moves

/-- The diagnostics of the host stay as they are, and all sessions as well, but for new tasks. -/
structure OnlyTasks (d d' : Ensemble) : Prop where
  collected : d'.manager.host.diagnostics = d.manager.host.diagnostics
  sessions : ∀ (i : Nat) (s' : Session), d'.manager.sessions[i]? = some s' →
    ∃ (s : Session) (tasks : List Task), d.manager.sessions[i]? = some s ∧ s' = { s with tasks }

theorem onlyTasks_same {m : Manager} (host : m.host.diagnostics = d.manager.host.diagnostics)
    (same : m.sessions = d.manager.sessions) : OnlyTasks d { d with manager := m } :=
  ⟨host, fun _ s' here => ⟨s', s'.tasks, same ▸ here, rfl⟩⟩

theorem onlyTasks_spawnEach (task : Task) (tasks : List ManagerTask) :
    OnlyTasks d { d with manager := { (d.manager.spawnEach task).1 with tasks } } := by
  obtain ⟨host, -, sessions, -⟩ := d.manager.spawnEach_cases task
  refine ⟨congrArg Host.diagnostics host, fun i s' here => ?_⟩
  obtain ⟨s, there, rfl⟩ := Option.map_eq_some_iff.mp ((sessions i).symm.trans here)
  exact ⟨s, _, there, rfl⟩

/-- A step of a session is a move of its scene. -/
theorem put_of_stepSession {m : Manager} {actor : Actor}
    (step : d.manager.stepSession d.now i actor = some m) :
    { d with manager := m } = d.put i ((d.scene i).step (.act actor)) := by
  cases here : d.manager.sessions[i]? with
  | none => simp [Manager.stepSession, here] at step
  | some s =>
    rw [Manager.stepSession_eq here] at step
    obtain ⟨r, stepped, rfl⟩ := Option.map_eq_some_iff.mp step
    simp [put, scene, here, Scene.step, Scene.touch, stepped]

/-- What a move does to sessions: something happens to one of them, or they get new tasks. -/
theorem step_scene (d : Ensemble) (move : Move) :
    (∃ i made, d.step move = d.put i ((d.scene i).step made) ∧
      d.publishing? move = ((d.scene i).publishing? made).map (i, ·)) ∨
    OnlyTasks d (d.step move) ∧ d.publishing? move = none := by
  cases move with
  | session i made => exact Or.inl ⟨i, made, rfl, rfl⟩
  | startAll => exact Or.inr ⟨onlyTasks_spawnEach (.start .locking) _, rfl⟩
  | stopAll => exact Or.inr ⟨onlyTasks_spawnEach (.stop .entering) _, rfl⟩
  | passOn | decide => exact Or.inr ⟨onlyTasks_same rfl rfl, rfl⟩
  | manage k =>
    simp only [step]
    cases stepped : d.manager.stepManager d.now k with
    | none => exact Or.inr ⟨onlyTasks_same rfl rfl, rfl⟩
    | some m =>
      cases Manager.stepManager_cases stepped with
      | ran task errands before after e _ here which split waits step
      | worked event events waiting e _ here more step =>
        exact Or.inl ⟨e.session, .act (.task e.task), put_of_stepSession step, rfl⟩
      | passed | done => exact Or.inr ⟨onlyTasks_same rfl rfl, rfl⟩
      | handed event events j waiting here =>
        refine Or.inr ⟨⟨rfl, fun i s' there => ?_⟩, rfl⟩
        simp only [Option.getD_some, Manager.spawn, Manager.onSession, List.getElem?_modify] at there
        obtain ⟨s, here, rfl⟩ := Option.map_eq_some_iff.mp there
        split
        · exact ⟨s, _, here, rfl⟩
        · exact ⟨s, s.tasks, here, rfl⟩

/-! ## The account of a run -/

/-- The account tells what the host has collected, and what each session keeps. -/
structure Noted (log : Postings) (d : Ensemble) : Prop where
  covered : ∀ (i : Nat) (s : Session), d.manager.sessions[i]? = some s → s.sync.Covered
  collected : d.manager.host.diagnostics = collect log.handed
  sessions : ∀ (i : Nat) (s : Session), d.manager.sessions[i]? = some s → s.Noted i log

/-- Something happens to a session, or to none where there is none of that number. -/
theorem Noted.put (noted : d.Noted log) (i : Nat) (made : Scene.Move) :
    (d.put i ((d.scene i).step made)).Noted (log ++ (((d.scene i).publishing? made).map (i, ·)).toList) := by
  have covered : (d.scene i).session.sync.Covered := by
    cases here : d.manager.sessions[i]? with
    | none =>
      -- there is no session of that number, and an absent one has nothing to cover
      have absent : (d.scene i).session = default := by simp [scene, here]
      rw [absent]
      exact fun _ _ => rfl
    | some s => simpa [scene, here] using noted.covered i s here
  have step := Scene.step_publishes covered made
  refine ⟨fun j s' here => ?_, step.collects noted.collected, fun j s' here => ?_⟩
  all_goals
    simp only [Ensemble.put, List.getElem?_set] at here
    split at here
  · rename_i own
    split at here
    · obtain rfl := Option.some.inj here
      exact (Scene.step_change covered made).covered covered
    · cases here
  · exact noted.covered j s' here
  · rename_i own
    subst own
    split at here
    · rename_i inside
      obtain rfl := Option.some.inj here
      refine step.noted (noted.sessions i _ ?_)
      simp [scene, inside]
    · cases here
  · rename_i other
    -- another session publishes, which this one does not keep
    have still := noted.sessions j s' here
    cases (d.scene i).publishing? made with
    | none => simpa using still
    | some p => exact still.other other p

theorem Noted.step (noted : d.Noted log) (move : Move) :
    (d.step move).Noted (log ++ (d.publishing? move).toList) := by
  rcases step_scene d move with ⟨i, made, same, publishes⟩ | ⟨only, publishes⟩
  · rw [same, publishes]
    exact noted.put i made
  · rw [publishes, Option.toList_none, List.append_nil]
    refine ⟨fun i s' here => ?_, only.collected.trans noted.collected, fun i s' here => ?_⟩
    · obtain ⟨s, tasks, there, rfl⟩ := only.sessions i s' here
      exact noted.covered i s there
    · obtain ⟨s, tasks, there, rfl⟩ := only.sessions i s' here
      exact ⟨(noted.sessions i s there).kept, (noted.sessions i s there).passing⟩

/-- A host to which nothing was published, and sessions to which nothing has happened. -/
structure Unpublished (host : Host) (sessions : List Session) : Prop where
  host : host.diagnostics = []
  sessions : ∀ s ∈ sessions, ∃ server options connector rest,
    s = { Session.ofConfig server options with connector, connectorRest := rest }

/-- **Every run is on account**: the host has what was handed to it, each session what it has taken. -/
theorem noted_after (fresh : Unpublished host sessions) (moves : List Move) :
    ((machine host sessions).after moves).Noted (postings host sessions moves) := by
  refine (machine host sessions).run_induction (fun moves d => d.Noted (postings host sessions moves)) ?_
    (fun moves move noted => ?_) moves
  · obtain ⟨same, among⟩ := Manager.foldl_add_cases sessions { host }
    have unstarted : ∀ {i : Nat} {s : Session}, (machine host sessions).start.manager.sessions[i]? = some s →
        ∃ server options connector rest,
          s = { Session.ofConfig server options with connector, connectorRest := rest } := fun here =>
      fresh.sessions _ ((among _ (List.mem_of_getElem? here)).resolve_left (by simp))
    refine ⟨fun i s here => ?_, (congrArg Host.diagnostics same).trans fresh.host, fun i s here => ?_⟩
    · obtain ⟨server, options, connector, rest, rfl⟩ := unstarted here
      exact DocumentSync.covered_new _
    · obtain ⟨server, options, connector, rest, rfl⟩ := unstarted here
      exact ⟨rfl, fun c => rfl⟩
  · rw [Machine.after_concat, step_machine, postings, Machine.recorded_concat]
    exact noted.step move

/-- The host has, for each document, what was handed to it last. -/
theorem diagnostics_after (fresh : Unpublished host sessions) (moves : List Move) (uri : String) :
    ((machine host sessions).after moves).manager.host.diagnostics.get? uri =
      (latest? uri (postings host sessions moves).handed).map (·.params.diagnostics) := by
  rw [(noted_after fresh moves).collected, get?_collect]

/-- The host has one list for each document. -/
theorem distinct_after (fresh : Unpublished host sessions) (moves : List Move) :
    ((machine host sessions).after moves).manager.host.diagnostics.keys.Nodup := by
  rw [(noted_after fresh moves).collected]
  exact nodup_keys_collect _

/-- A session keeps, for each document, what its server published last. -/
theorem kept_after (fresh : Unpublished host sessions) (moves : List Move) (uri : String)
    (here : ((machine host sessions).after moves).manager.sessions[i]? = some s) :
    s.diagnostics.get? uri =
      (latest? uri (ofSession i (postings host sessions moves).taken)).map (·.params.diagnostics) := by
  rw [((noted_after fresh moves).sessions i s here).kept, get?_collect]

/-- **The last publication decides.**  Whatever happens to some sessions that share a host, from their
    beginning on:

    * the host has, for each document, the diagnostics that were handed to it last, whichever server
      published them;
    * each session keeps, for each document, what its own server published last, and hands to the host all
      that it has taken, in the same order on each connection;
    * two runs in which each server keeps its order end with the same diagnostics at the host if, for each
      document, the same server is the last one to publish, and so if no document has publications of two
      servers. -/
theorem latest_publication_decides (host : Host) (sessions : List Session)
    (fresh : Unpublished host sessions) :
    (∀ moves, let d := (machine host sessions).after moves
      let log := postings host sessions moves
      (∀ uri, d.manager.host.diagnostics.get? uri =
        (latest? uri log.handed).map (·.params.diagnostics)) ∧
      ∀ (i : Nat) (s : Session), d.manager.sessions[i]? = some s →
        (∀ uri, s.diagnostics.get? uri =
          (latest? uri (ofSession i log.taken)).map (·.params.diagnostics)) ∧
        ∀ c, ofConnection i c log.taken =
          ofConnection i c log.handed ++ ((s.passing.get? c).map (⟨i, c, ·⟩)).toList) ∧
    ∀ moves moves', let ps := (postings host sessions moves).handed
      let ps' := (postings host sessions moves').handed
      (∀ i, ofSession i ps = ofSession i ps') →
      ((∀ uri, (latest? uri ps).map (·.session) = (latest? uri ps').map (·.session)) ∨ Exclusive ps) →
      ∀ uri, ((machine host sessions).after moves).manager.host.diagnostics.get? uri =
        ((machine host sessions).after moves').manager.host.diagnostics.get? uri := by
  refine ⟨fun moves => ⟨diagnostics_after fresh moves, fun i s here => ?_⟩,
    fun moves moves' same which uri => ?_⟩
  · exact ⟨fun uri => kept_after fresh moves uri here, ((noted_after fresh moves).sessions i s here).passing⟩
  · rw [diagnostics_after fresh, diagnostics_after fresh]
    refine congrArg _ ?_
    rcases which with server | exclusive
    · exact latest?_congr same (server uri)
    · exact latest?_of_exclusive same exclusive uri

/-! ## Two servers -/

/-- Two servers for one language. -/
def twoServers : List Session :=
  ["one", "two"].map fun name =>
    .ofConfig { name, transport := .process "fake-ls" [], languages := ["rust"] } {}

/-- Both sessions begin to run. -/
def bothBegan : List Move :=
  Scene.began.map (.session 0) ++ Scene.began.map (.session 1)

/-- What a server publishes for a document. -/
def complaint (message : String) : PublishDiagnosticsParams :=
  { uri := "file:///a.rs", diagnostics := [{ range := ⟨⟨0, 0⟩, ⟨0, 1⟩⟩, message }] }

/-- The read loop of a session takes some steps. -/
def reads (i n : Nat) : List Move :=
  List.replicate n (.session i (.act (.reader 0)))

/-- The server of a session publishes a complaint, and the read loop begins to handle it. -/
def hears (i : Nat) (message : String) : List Move :=
  let n := Session.notice "textDocument/publishDiagnostics" (complaint message)
  .session i (.feed 0 (Message.notification n).frame.toByteArray.data.toList) :: reads i 2

/-- Both publish for one document, the second server when the first one has been heard. -/
def secondLater : List Move :=
  bothBegan ++ hears 0 "vet" ++ reads 0 2 ++ hears 1 "lint" ++ reads 1 2

/-- The second server is first taken into its session, and last handed to the host. -/
def interleaved : List Move :=
  bothBegan ++ hears 0 "vet" ++ hears 1 "lint" ++ reads 1 1 ++ reads 0 2 ++ reads 1 1

/-- The first server publishes when the second one has been heard. -/
def firstLater : List Move :=
  bothBegan ++ hears 1 "lint" ++ reads 1 2 ++ hears 0 "vet" ++ reads 0 2

theorem unpublished_twoServers : Unpublished Scene.wholeTexts.host twoServers where
  host := rfl
  sessions := by
    intro s among
    obtain ⟨name, -, rfl⟩ := List.mem_map.mp among
    exact ⟨{ name, transport := .process "fake-ls" [], languages := ["rust"] }, {}, [], .opened, rfl⟩

/-- What the read loops do in these runs. -/
theorem postings_twoServers :
    postings Scene.wholeTexts.host twoServers secondLater =
      [(0, .takes 0 (complaint "vet")), (0, .hands 0 (complaint "vet")),
        (1, .takes 0 (complaint "lint")), (1, .hands 0 (complaint "lint"))] ∧
    postings Scene.wholeTexts.host twoServers interleaved =
      [(1, .takes 0 (complaint "lint")), (0, .takes 0 (complaint "vet")),
        (0, .hands 0 (complaint "vet")), (1, .hands 0 (complaint "lint"))] ∧
    postings Scene.wholeTexts.host twoServers firstLater =
      [(1, .takes 0 (complaint "lint")), (1, .hands 0 (complaint "lint")),
        (0, .takes 0 (complaint "vet")), (0, .hands 0 (complaint "vet"))] := by
  decide +kernel

/-- The first server is handed to the host before the second one, so the second one is what the host has;
    it does not matter which of them was taken first. -/
theorem latest_publication_decides_interleaved :
    let d := (machine Scene.wholeTexts.host twoServers).after secondLater
    let d' := (machine Scene.wholeTexts.host twoServers).after interleaved
    d.manager.host.diagnostics.get? "file:///a.rs" = some (complaint "lint").diagnostics ∧
    ∀ uri, d.manager.host.diagnostics.get? uri = d'.manager.host.diagnostics.get? uri := by
  obtain ⟨later, between, -⟩ := postings_twoServers
  obtain ⟨each, both⟩ :=
    latest_publication_decides Scene.wholeTexts.host twoServers unpublished_twoServers
  refine ⟨((each secondLater).1 _).trans ?_,
    both secondLater interleaved (fun i => ?_) (Or.inl fun uri => ?_)⟩
  · rw [later]
    decide
  · rw [later, between]
    rfl
  · rw [later, between]
    rfl

/-- **The later server is heard.**  Both servers run, and each keeps its order; but the host ends with the
    diagnostics of the one that publishes later, and has none of the other, which that one's session keeps. -/
theorem later_server_heard :
    let d := (machine Scene.wholeTexts.host twoServers).after secondLater
    let d' := (machine Scene.wholeTexts.host twoServers).after firstLater
    d.manager.status = [("one", .running), ("two", .running)] ∧ d'.manager.status = d.manager.status ∧
    (∀ i, ofSession i (postings Scene.wholeTexts.host twoServers secondLater).handed =
      ofSession i (postings Scene.wholeTexts.host twoServers firstLater).handed) ∧
    d.manager.host.diagnostics.get? "file:///a.rs" = some (complaint "lint").diagnostics ∧
    d'.manager.host.diagnostics.get? "file:///a.rs" = some (complaint "vet").diagnostics ∧
    (d.manager.sessions[0]?).bind (·.diagnostics.get? "file:///a.rs") =
      some (complaint "vet").diagnostics := by
  intro d d'
  obtain ⟨later, -, earlier⟩ := postings_twoServers
  have running : d.manager.status = [("one", .running), ("two", .running)] ∧
      d'.manager.status = [("one", .running), ("two", .running)] := by
    decide +kernel
  refine ⟨running.1, running.2.trans running.1.symm, fun i => ?_, ?_, ?_, ?_⟩
  · rw [later, earlier]
    rcases i with _ | _ | i <;> simp [Postings.handed, ofSession]
  · rw [diagnostics_after unpublished_twoServers, later]
    decide
  · rw [diagnostics_after unpublished_twoServers, earlier]
    decide
  · cases here : d.manager.sessions[0]? with
    | none =>
      have empty : d.manager.sessions = [] := by simpa using here
      simp [Manager.status, empty] at running
    | some s =>
      rw [Option.bind_some, kept_after unpublished_twoServers secondLater _ here, later]
      decide

end Ensemble

end LanguageClient
