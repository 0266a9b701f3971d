import LanguageClient.Proofs.Session.Calls
/-!
# What tasks write

A step of a task writes one message at most, and beside it answers to requests of the server
(`TaskStep.wrote`).  The message is the notification that the task is about to write, or comes from its
call: the request, or the notice that the request is not wanted any more (`Task.Writes`).

So whatever is found among the messages of a connection can be traced back to the task that was about to
write it.
-/

namespace LanguageClient

/-- What a task may write next on a connection. -/
inductive Task.Writes (task : Task) (c : Nat) : Message → Prop where
  | noticed (n : Notification) (speech : task.speech? = some (c, n)) : Writes task c (.notification n)
  | asked (call : Call) (id : Nat) (calling : task.call? = some (c, call))
      (place : call.phase = .registered id) : Writes task c (.request (call.request id))
  | withdrew (call : Call) (id : Nat) (e : ClientError) (calling : task.call? = some (c, call))
      (place : call.phase = .notifying id e) : Writes task c (Call.cancelMessage id)

/-- One of some messages was written, or none; and then answers. -/
def Wrote (may : Message → Prop) (sent sent' : List Message) : Prop :=
  ∃ (first : Option Message) (answers : List Response),
    sent' = sent ++ (first.toList ++ answers.map .response) ∧ ∀ m ∈ first, may m

theorem Wrote.answers {may : Message → Prop} {sent : List Message} (answers : List Response) :
    Wrote may sent (sent ++ answers.map .response) :=
  ⟨none, answers, by simp, by simp⟩

theorem Wrote.refl {may : Message → Prop} (sent : List Message) : Wrote may sent sent := by
  simpa using @Wrote.answers may sent []

theorem Wrote.imp {may may' : Message → Prop} {sent sent' : List Message} (wrote : Wrote may sent sent')
    (weaken : ∀ m, may m → may' m) : Wrote may' sent sent' := by
  obtain ⟨first, answers, split, allowed⟩ := wrote
  exact ⟨first, answers, split, fun m among => weaken m (allowed m among)⟩

theorem Wrote.grows {may : Message → Prop} {sent sent' : List Message} (wrote : Wrote may sent sent') :
    sent <+: sent' := by
  obtain ⟨first, answers, rfl, -⟩ := wrote
  exact List.prefix_append _ _

namespace Connection

variable {c c' : Connection}

theorem Effect.wrote {may : Message → Prop} (effect : c.Effect c') : Wrote may c.sent c'.sent := by
  obtain ⟨answers, split⟩ := effect.sent
  exact split ▸ .answers answers

theorem Tame.wrote {may : Notification → Prop} (tame : c.Tame may c') :
    Wrote (fun m => c.canWrite = true ∧ ∃ n, m = .notification n ∧ may n) c.sent c'.sent := by
  cases tame with
  | effect effect => exact effect.wrote
  | noticed n said can rest =>
    obtain ⟨answers, split⟩ := rest.sent
    exact ⟨some (.notification n), answers, by simp [split], by simp [can, said]⟩

end Connection

namespace Call.Step

variable {now : Nat} {c c' : Connection} {call : Call} {phase : CallPhase}

theorem wrote (step : Step now c call c' phase) :
    Wrote (fun m => c.canWrite = true ∧
      ((∃ id, call.phase = .registered id ∧ m = .request (call.request id)) ∨
        ∃ id e, call.phase = .notifying id e ∧ m = cancelMessage id)) c.sent c'.sent := by
  cases step with
  | written id _ place wrote =>
    obtain ⟨can, rfl⟩ := Connection.canWrite_of_write wrote
    exact ⟨some _, [], by simp; rfl, by simpa [can] using Or.inl ⟨id, place, rfl⟩⟩
  | notified id e place =>
    rcases c.tryWrite_cases (cancelMessage id) with ⟨can, wrote⟩ | ⟨-, failed⟩
    · rw [wrote]
      exact ⟨some _, [], by simp; rfl, by simpa [can] using Or.inr ⟨id, ⟨e, place⟩, rfl⟩⟩
    · rw [failed]
      exact .refl _
  | _ => exact .refl _

/-- The first step of a call writes nothing. -/
theorem sent_of_fresh (step : Step now c call c' phase) (fresh : call.phase = .entering) :
    c'.sent = c.sent := by
  cases step <;> simp_all

end Call.Step

namespace Session

variable {now : Nat} {h h' : Host} {s s' : Session} {t c : Nat} {task task' : Task}

theorem sent_of_connections (same : s'.connections = s.connections) (c : Nat) :
    (s'.connection c).sent = (s.connection c).sent := by
  unfold connection
  rw [same]
  cases s.connections[c]? <;> rfl

/-- What was written on a connection, after a connection was replaced. -/
theorem sent_of_set {connection : Connection} (set : s'.connections = s.connections.set c connection)
    (c' : Nat) : (s'.connection c').sent = (s.connection c').sent ∨
      c' = c ∧ (s'.connection c').sent = connection.sent := by
  by_cases here : c' = c ∧ c < s.connections.length
  · obtain ⟨rfl, inside⟩ := here
    exact Or.inr ⟨rfl, by simp [Session.connection, set, inside]⟩
  · have same : s'.connections[c']? = s.connections[c']? := by
      by_cases other : c = c'
      · rw [set, List.set_eq_of_length_le (by omega)]
      · rw [set, List.getElem?_set_ne other]
    refine Or.inl ?_
    unfold Session.connection
    rw [same]
    cases s.connections[c']? <;> rfl

/-- A step writes what the task was about to write. -/
theorem Talk.wrote (talk : Talk now s task s' task') (c : Nat) :
    Wrote (fun m => task.Writes c m ∧ (s.connection c).canWrite = true) (s.connection c).sent
      (s'.connection c).sent := by
  cases talk with
  | quiet connections => exact sent_of_connections connections c ▸ .refl _
  -- a connection just opened has sent nothing
  | opened connections =>
    have same : (s'.connection c).sent = (s.connection c).sent := by
      unfold connection
      rw [connections, List.getElem?_append]
      split
      · rename_i inside
        simp [List.getElem?_eq_getElem inside]
      · rename_i outside
        rw [List.getElem?_eq_none (Nat.le_of_not_lt outside), List.getElem?_singleton]
        split <;> rfl
    exact same ▸ .refl _
  | tended c' connection tame connections =>
    rcases sent_of_set connections c with same | ⟨rfl, same⟩
    · exact same ▸ .refl _
    · rw [same]
      refine tame.wrote.imp ?_
      rintro _ ⟨can, n, rfl, speech⟩
      exact ⟨.noticed n speech, can⟩
  | began c' connection₁ connection call phase _ idle tame fresh step connections call' =>
    rcases sent_of_set connections c with same | ⟨rfl, same⟩
    · exact same ▸ .refl _
    -- a fresh call has written nothing yet
    · rw [same, step.sent_of_fresh fresh]
      refine tame.wrote.imp ?_
      rintro _ ⟨can, n, rfl, speech⟩
      exact ⟨.noticed n speech, can⟩
  | talked c' connection call phase calling step connections call' =>
    rcases sent_of_set connections c with same | ⟨rfl, same⟩
    · exact same ▸ .refl _
    · rw [same]
      refine step.wrote.imp ?_
      -- the request itself, or that it is not wanted any more
      rintro _ ⟨can, ⟨id, place, rfl⟩ | ⟨id, e, place, rfl⟩⟩
      · exact ⟨.asked call id calling place, can⟩
      · exact ⟨.withdrew call id e calling place, can⟩

/-- Whoever serves the server leaves every connection to what it may do by itself. -/
theorem Serves.effect (serves : Serves h s h' s') (c : Nat) :
    (s.connection c).Effect (s'.connection c) := by
  obtain ⟨c', connection, registry, handlers, passing, diagnostics, -, effect, rfl⟩ := serves
  change (s.connection c).Effect ((s.setConnection c' connection).connection c)
  by_cases here : c' = c ∧ c' < s.connections.length
  · obtain ⟨rfl, inside⟩ := here
    simpa [setConnection, Session.connection, inside] using effect
  · have same : (s.connections.set c' connection)[c]? = s.connections[c]? := by
      by_cases other : c' = c
      · rw [List.set_eq_of_length_le (Nat.le_of_not_lt fun inside => here ⟨other, inside⟩)]
      · rw [List.getElem?_set_ne other]
    simp only [setConnection, Session.connection, same]
    exact .steady (.refl _)

/-- A step of a session writes what one of its tasks was about to write. -/
theorem Moved.wrote (moved : Moved now h s h' s') (c : Nat) :
    Wrote (fun m => (s.connection c).canWrite = true ∧
        ∃ (t : Nat) (task : Task), s.tasks[t]? = some task ∧ task.Writes c m)
      (s.connection c).sent (s'.connection c).sent := by
  cases moved with
  | task t task _ s₁ task' here step =>
    refine (step.talk.wrote c).imp ?_
    rintro m ⟨writes, can⟩
    exact ⟨can, t, task, here, writes⟩
  | served _ _ serves => exact (serves.effect c).wrote

end Session

namespace Scene

variable {d d' : Scene}

/-- Whatever happens, what is written is what a task was about to write. -/
theorem Change.wrote (change : Change d d') (c : Nat) :
    Wrote (fun m => (d.session.connection c).canWrite = true ∧
        ∃ (t : Nat) (task : Task), d.session.tasks[t]? = some task ∧ task.Writes c m)
      (d.session.connection c).sent (d'.session.connection c).sent := by
  rcases change.cases with ⟨-, moved⟩ | ⟨aside, -⟩
  · exact moved.wrote c
  · rw [aside.rest]
    exact .refl _

end Scene

end LanguageClient
