import LanguageClient.Proofs.Document.Telling
import LanguageClient.Proofs.Session.Lock
import LanguageClient.Proofs.Session.Writing
/-!
# What a session tells of documents

What was told on a connection can be read off what was written there (`Session.told`); what the task
with the lock on the documents is about to write is owed (`Session.owed`).  Both together are the
conversation: the bookkeeping is always ahead of what was told by what is owed.

Only a task with the lock writes about documents (`Talk.sent_cases`, `Task.holds_of_speech`), so a
step of any other task leaves the conversation as it is (`Session.conversation_of_idle`).
-/

namespace LanguageClient

/-- What a task has to tell before it gives the lock on the documents back. -/
def Task.owed : Task → List Notification
  | .start (.announcing _ params _) => [Session.notice "textDocument/didOpen" params]
  | .event _ (.flushing _ params) | .delivery _ _ _ (.looking params)
  | .delivery _ _ _ (.writing _ params) | .query _ (.flushing _ params) =>
    [Session.notice "textDocument/didChange" params]
  | .event _ (.writing _ n) => [n]
  | _ => []

namespace Task

variable {task : Task} {c : Nat} {n : Notification} {kind : NoticeKind}

theorem owed_of_not_holds (idle : ¬ task.HoldsSync) : task.owed = [] := by
  unfold owed
  split <;> first
    | rfl
    | exact absurd trivial idle

/-- Whoever writes about a document holds the lock, and owes what it writes. -/
theorem holds_of_speech (speech : task.speech? = some (c, n)) (about : n.kind? = some kind) :
    task.HoldsSync ∧ task.connection? = some c ∧ task.owed = [n] := by
  unfold speech? at speech
  split at speech <;> simp only [Option.some.injEq, Prod.mk.injEq, reduceCtorEq] at speech <;>
    obtain ⟨rfl, rfl⟩ := speech
  · simp [Notification.kind?, NoticeKind.ofMethod?] at about
  · exact ⟨trivial, rfl, rfl⟩
  · simp [Notification.kind?, NoticeKind.ofMethod?] at about
  · exact ⟨trivial, rfl, rfl⟩
  · exact ⟨trivial, rfl, rfl⟩
  · exact ⟨trivial, rfl, rfl⟩
  · exact ⟨trivial, rfl, rfl⟩

end Task

/-! ## Connections that can be written on -/

namespace Call.Step

variable {now : Nat} {c c' : Connection} {call : Call} {phase : CallPhase}

theorem canWrite (step : Step now c call c' phase) : c'.canWrite = c.canWrite := by
  cases step with
  | written id _ place wrote =>
    obtain ⟨-, rfl⟩ := Connection.canWrite_of_write wrote
    rfl
  | notified id =>
    rcases c.tryWrite_cases (cancelMessage id) with ⟨-, wrote⟩ | ⟨-, failed⟩
    · rw [wrote]
      rfl
    · rw [failed]
  | _ => rfl

end Call.Step

theorem Connection.Effect.canWrite {c c' : Connection} (effect : c.Effect c')
    (can : c'.canWrite = true) : c.canWrite = true := by
  cases effect with
  | steady h => exact h.canWrite can
  | settled id r place h =>
    have before := h.canWrite can
    rcases c.settle_cases id r with ⟨k, -, -, settled⟩ | ⟨-, settled⟩ <;> rwa [settled] at before
  | drained h => exact h.canWrite can

theorem Connection.Tame.canWrite {c c' : Connection} {may : Notification → Prop}
    (tame : c.Tame may c') (can : c'.canWrite = true) : c.canWrite = true := by
  cases tame with
  | effect effect => exact effect.canWrite can
  | noticed n said can' rest => exact can'

namespace Session

variable {now : Nat} {h h' : Host} {s s' : Session} {t i c : Nat} {task task' : Task}

/-! ## What was told -/

/-- What was told on a connection about documents. -/
def told (s : Session) (c : Nat) : List Notification :=
  documentNotifications (s.connection c).sent

theorem told_eq (same : (s'.connection c).sent = (s.connection c).sent) : s'.told c = s.told c := by
  rw [told, same, told]

theorem told_of_connections (same : s'.connections = s.connections) : s'.told c = s.told c :=
  told_eq (sent_of_connections same c)

/-- What is written on a connection is there, if the connection is. -/
theorem told_writes {m : Message} (inside : c < s.connections.length) (c' : Nat) :
    (s.writes c m).told c' =
      if c' = c then s.told c ++ documentNotifications [m] else s.told c' := by
  by_cases same : c' = c
  · subst same
    simp [told, writes, onConnection, setConnection, connection, inside]
  · simp [told, writes, onConnection, setConnection, connection, List.getElem?_set_ne (Ne.symm same),
      same]

/-- What a step writes on a connection: nothing about documents, or what the task was about to write
    there. -/
theorem Talk.sent_cases (talk : Talk now s task s' task') (c : Nat) :
    ∃ more, (s'.connection c).sent = (s.connection c).sent ++ more ∧
      (documentNotifications more = [] ∨ ∃ n rest, task.speech? = some (c, n) ∧
        (s.connection c).canWrite = true ∧ more = .notification n :: rest ∧
        documentNotifications rest = []) := by
  obtain ⟨first, answers, split, may⟩ := talk.wrote c
  refine ⟨_, split, ?_⟩
  cases first with
  | none => exact Or.inl (by simp)
  | some m =>
    obtain ⟨writes, can⟩ := may m rfl
    cases writes with
    | noticed n speech => exact Or.inr ⟨n, _, speech, can, rfl, by simp⟩
    | asked call id calling place =>
      exact Or.inl (by simp [documentNotifications, Message.documentNotification?])
    | withdrew call id e calling place =>
      exact Or.inl (by simp [documentNotifications, Message.documentNotification?, Call.cancelMessage,
        Notification.kind?, NoticeKind.ofMethod?, Connection.cancelMethod])

/-- A connection that cannot be written on stays so. -/
theorem Talk.canWrite (talk : Talk now s task s' task') (c : Nat)
    (can : (s'.connection c).canWrite = true) : (s.connection c).canWrite = true := by
  by_cases short : c < s.connections.length
  -- where the step does not reach, the connection is the same one
  · have same : ∀ {connections : List Connection}, connections[c]? = s.connections[c]? →
        s'.connections = connections → (s.connection c).canWrite = true := by
      intro connections same is
      rw [connection, ← same, ← is]
      rw [connection] at can
      rw [is, same, List.getElem?_eq_getElem short] at can ⊢
      exact can
    cases talk with
    | quiet connections => exact same rfl connections
    | opened connections => exact same (List.getElem?_append_left short) connections
    | tended c' connection tame connections =>
      by_cases here : c' = c
      · subst here
        exact tame.canWrite (by simpa [Session.connection, connections, short] using can)
      · exact same (List.getElem?_set_ne here) connections
    | began c' connection₁ connection call phase _ idle tame fresh step connections call' =>
      by_cases here : c' = c
      · subst here
        refine tame.canWrite ?_
        rw [← step.canWrite]
        simpa [Session.connection, connections, short] using can
      · exact same (List.getElem?_set_ne here) connections
    | talked c' connection call phase calling step connections call' =>
      by_cases here : c' = c
      · subst here
        rw [← step.canWrite]
        simpa [Session.connection, connections, short] using can
      · exact same (List.getElem?_set_ne here) connections
  · simp [connection, List.getElem?_eq_none (Nat.le_of_not_lt short), Connection.canWrite]

/-- A task that is not about to write of documents tells nothing. -/
theorem Talk.told_eq (talk : Talk now s task s' task')
    (mute : ∀ n, task.speech? = some (c, n) → n.kind? = none ∨ (s.connection c).canWrite = false) :
    s'.told c = s.told c := by
  obtain ⟨more, wrote, silent | ⟨n, rest, speech, can, rfl, silent⟩⟩ := talk.sent_cases c
  · simp [told, wrote, silent]
  · rcases mute n speech with other | cannot
    · have untold : documentNotifications (.notification n :: rest) = documentNotifications rest := by
        simp [documentNotifications, Message.documentNotification?, other]
      simp [told, wrote, untold, silent]
    · simp [can] at cannot

/-- Whoever serves the server tells nothing of documents. -/
theorem Serves.told (serves : Serves h s h' s') (c : Nat) : s'.told c = s.told c := by
  obtain ⟨answers, wrote⟩ := (serves.effect c).sent
  simp [Session.told, wrote]

/-! ## What is owed -/

/-- What the task with the lock on the documents is about to tell. -/
def owed (s : Session) : List Notification :=
  match s.syncOwner with
  | some t => (s.tasks[t]?.map Task.owed).getD []
  | none => []

/-- What was told on a connection, and is owed. -/
def conversation (s : Session) (c : Nat) : List Notification :=
  s.told c ++ s.owed

/-- While no other task has the lock, what is owed is owed by this one. -/
theorem Locked.owed (locked : s.Locked) (here : s.tasks[t]? = some task)
    (alone : s.syncOwner = none ∨ s.syncOwner = some t) : s.owed = task.owed := by
  rcases alone with free | mine
  · simp [Session.owed, free, Task.owed_of_not_holds (locked.free free here)]
  · simp [Session.owed, mine, here]

/-- When nobody is about to tell anything, what was told is all of the conversation. -/
theorem conversation_eq_told (idle : ∀ task ∈ s.tasks, ¬ task.HoldsSync) (c : Nat) :
    s.conversation c = s.told c := by
  have owed : s.owed = [] := by
    unfold Session.owed
    cases s.syncOwner with
    | none => rfl
    | some i =>
      cases here : s.tasks[i]? with
      | none => simp [here]
      | some task => simp [here, Task.owed_of_not_holds (idle task (List.mem_of_getElem? here))]
  simp [Session.conversation, owed]

/-- Steps of tasks without the lock, while another has it, do not concern the conversation. -/
theorem TaskStep.conversation_of_idle (step : TaskStep now h s t task h' s' task')
    (here : s.tasks[t]? = some task) (locked : s.Locked) (taken : s.syncOwner = some i)
    (other : i ≠ t) (c : Nat) :
    s'.sync = s.sync ∧ (s'.setTask t task').conversation c = s.conversation c := by
  -- the lock is another's, and whoever acts on documents holds it
  have idle : ¬ task.HoldsSync := fun holds =>
    other (Option.some.inj (taken.symm.trans (locked.holder t task here holds)))
  have sync : s'.sync = s.sync := by
    rcases step.sync_use.locked with same | holds | free
    · exact same
    · exact absurd holds idle
    · simp [taken] at free
  have owner : s'.syncOwner = some i := by
    rcases step.lock_cases (locked.sound t task here) with ⟨same, -⟩ | ⟨free, -⟩ | ⟨holds, -⟩
    · rw [same, taken]
    · simp [taken] at free
    · exact absurd holds idle
  have told : s'.told c = s.told c := by
    refine step.talk.told_eq fun n speech => Or.inl ?_
    cases about : n.kind? with
    | none => rfl
    | some kind => exact absurd (Task.holds_of_speech speech about).1 idle
  refine ⟨sync, ?_⟩
  -- what is owed is owed by the holder of the lock, and its place is kept
  have owed : (s'.setTask t task').owed = s.owed := by
    simp only [Session.owed, setTask, owner, taken]
    rw [List.getElem?_set_ne (Ne.symm other)]
    rcases step.tasks with same | ⟨born, isBorn, more⟩
    · rw [same]
    · rw [more, List.getElem?_append]
      split
      · rfl
      · rename_i outside
        rw [List.getElem?_eq_none (Nat.le_of_not_lt outside), List.getElem?_singleton]
        split
        · cases isBorn <;> rfl
        · rfl
  change s'.told c ++ (s'.setTask t task').owed = _
  rw [told, owed, conversation]

end Session

end LanguageClient
