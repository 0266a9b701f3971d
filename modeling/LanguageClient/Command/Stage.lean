import LanguageClient.Command.Query
import LanguageClient.Command.Run
import LanguageClient.Report
/-!
# Carrying commands out

Most commands are done at once.  A query and a run talk to servers, and go through stages: the
servers start, they are asked or given time, and they stop.  `CommandStage.step` goes from one stage
to the next as soon as the tasks of the sessions allow it.
-/

namespace LanguageClient

/-- Where commands are carried out. -/
structure CommandSite where
  store : SettingsStore
  tree : FileTree
  /-- The lines that the user has ready. -/
  lines : List String := []
  /-- What every attempt to reach a server comes to. -/
  reach : ServerTransport → ConnectOutcome

namespace CommandSite

/-- The settings for commands: the standard ones when those in force cannot be had. -/
def config (site : CommandSite) : ClientConfig :=
  match site.store.load site.tree false with
  | .ok config => config
  | .error _ => {}

/-- The host for commands; a user answers questions only when that is wanted. -/
def host (site : CommandSite) (interactive : Bool) : Host :=
  { root := site.store.root
    tree := site.tree
    walk := .ofSettings site.config.files
    mode := if interactive then .interactive site.lines else .fixed none }

end CommandSite

/-- Where a command stands that talks to servers. -/
inductive CommandStage where
  /-- The server of a query starts. -/
  | opening (q : Query) (task : Nat)
  /-- The server of a query is asked. -/
  | asking (q : Query) (task : Nat)
  /-- The server of a query has answered, and stops. -/
  | parting (q : Query) (result : Except ClientError Json) (task : Nat)
  /-- The servers of a run start. -/
  | launching (opened : List String) (wait k : Nat)
  /-- The servers of a run have time up to a moment. -/
  | listening (opened : List String) (results : List (String × Option ClientError))
      (deadline : Nat)
  /-- The servers of a run stop. -/
  | dismissing (opened : List String) (servers : List Run.ServerOutcome) (k : Nat)
  | ended (report : Json)
  deriving Inhabited

namespace CommandStage

/-- The time of a run is over: the servers stop. -/
def dismiss (m : Manager) (opened : List String)
    (results : List (String × Option ClientError)) : Manager × CommandStage :=
  (m.stopAll, .dismissing opened (Run.outcomes results m.status) m.tasks.length)

/-- What a query is reported as when its server has stopped. -/
def queryReport (root : String) (q : Query) : Except ClientError Json → Json
  | .ok result => q.report root result
  | .error e => Report.failure e.message

/-- The next stage; none while something is waited for. -/
def step (now : Nat) (m : Manager) : CommandStage → Option (Manager × CommandStage)
  | opening q task =>
    match m.task? ⟨0, task⟩ with
    | some (.start (.ended (.ok ()))) =>
      some (m.spawn 0 (.request q.kind.method (some q.params) false .entering),
        .asking q (m.nextTask 0))
    | some (.start (.ended (.error e))) => some (m, .ended (Report.failure e.message))
    | _ => none
  | asking q task =>
    match m.task? ⟨0, task⟩ with
    | some (.request _ _ _ (.ended result)) =>
      some (m.spawn 0 (.stop .entering), .parting q result (m.nextTask 0))
    | _ => none
  | parting q result task =>
    match m.task? ⟨0, task⟩ with
    | some (.stop .ended) => some (m, .ended (queryReport m.host.root q result))
    | _ => none
  | launching opened wait k =>
    (m.startResults? k).map fun results =>
      if results.any fun (_, failure) => failure.isNone then
        (m, .listening opened results (now + wait))
      else dismiss m opened results
  | listening opened results deadline =>
    if deadline ≤ now then some (dismiss m opened results) else none
  | dismissing opened servers k =>
    match m.tasks[k]? with
    | some task =>
      if m.isDone task then some (m, .ended (Run.report m.host opened servers)) else none
    | none => none
  | ended _ => none

/-- The moment for which the command itself waits. -/
def deadline? : CommandStage → Option Nat
  | listening _ _ deadline => some deadline
  | _ => none

end CommandStage

/-- What becomes of a command when it is given. -/
inductive CommandStart where
  /-- It is done, with a report, and has left these files. -/
  | done (report : Json) (tree : FileTree)
  | talking (m : Manager) (stage : CommandStage)
  deriving Inhabited

namespace Command

/-- Begins to carry a command out. -/
def start (site : CommandSite) : Command → Except CommandError CommandStart
  | run files names wait interactive => do
    let (opened, m) ← Run.prepare site.config (site.host interactive) files names
    let m := (m.withReach site.reach).startAll
    return .talking m (.launching opened wait 0)
  | query kind place choice declaration => do
    let (q, host) ← Query.prepare site.config (site.host false) kind place choice declaration
    let session := Session.ofConfig q.server (.ofSettings q.server site.config.files)
    let m := (({ host } : Manager).add session).withReach site.reach
    return .talking (m.spawn 0 (.start .locking)) (.opening q 0)
  | servers => return .done (SettingsReport.servers site.config) site.tree
  | initSettings ofUser force =>
    let (report, tree) := SettingsReport.init site.store site.tree ofUser force
    return .done report tree
  | showSettings ofUser => return .done (SettingsReport.show site.store site.tree ofUser) site.tree
  | settingsPath ofUser => return .done (SettingsReport.path site.store site.tree ofUser) site.tree

end Command

end LanguageClient
