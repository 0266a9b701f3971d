import LanguageClient.Proofs.Session.Conversation
import LanguageClient.Proofs.Session.States
/-!
# What one step tells

`Utterance` lists what a step of a task can do to the conversation on a connection while no other
task has the lock on the documents: tell what the bookkeeping gives out, or one of four things that
end the conversation or leave a change untold.  `TaskStep.utterance` shows that there is nothing
else, for a task that works on this connection and a session that has been started.
-/

namespace LanguageClient

/-- A start that does not lead to a connection other than `c`: it has run on `c`, it has failed, or it
    waits for its turn. -/
def StartPhase.Past (c : Nat) : StartPhase → Prop
  | .locking | .failing .. | .reporting _ | .ended _ => True
  | .greeting c' _ | .listing c' | .announcing c' _ _ => c' = c
  | _ => False

/-- An event concerns a document that the server has open. -/
def EventPhase.Regards : EventPhase → Prop
  | .checking _ | .naming _ | .matching .. | .flushing .. => True
  | _ => False

/-- A task takes down what the session held, and has taken the connection out of use. -/
def Task.Detached : Task → Prop
  | .start (.failing _ t) => t ≠ .detaching
  | .stop .entering | .stop (.detaching _) | .stop .ended => False
  | .stop _ => True
  | .watch _ (.tearing t) => t ≠ .detaching
  | _ => False

namespace Session

variable {now : Nat} {h h' : Host} {s s' : Session} {t i c : Nat} {task task' : Task}

/-- What a step does to the conversation on a connection. -/
inductive Utterance (s : Session) (c : Nat) (task : Task) (s' : Session) (task' : Task) : Prop where
  /-- The session tells what it has to tell. -/
  | told (notes : List Notification) (telling : Telling task.Asks s.sync s'.sync notes)
      (heard : s'.told c ++ task'.owed = s.told c ++ task.owed ++ notes)
  /-- A staged change is dropped, for the session does not run any more. -/
  | dropped (uri : String) (generation : Nat) (params : DidChangeParams) (idle : s.state ≠ .running)
      (free : s.syncOwner = none)
      (taken : s.sync.step (.takeStaged uri generation) = (.released (some params), s'.sync))
      (told : s'.told c = s.told c) (silent : task.owed = [] ∧ task'.owed = [])
  /-- Everything is taken back. -/
  | reset (detached : task.Detached) (free : s.syncOwner = none) (sync : s'.sync = s.sync.reset)
      (told : s'.told c = s.told c) (released : ¬ task'.HoldsSync)
  /-- The connection cannot be written on. -/
  | cut (n : Notification) (speech : task.speech? = some (c, n))
      (cannot : (s.connection c).canWrite = false) (sync : s'.sync = s.sync)
      (told : s'.told c = s.told c) (mine : task.HoldsSync) (released : ¬ task'.HoldsSync)
  /-- The connection is not used any more. -/
  | stranded (unused : s.current = none) (sync : s'.sync = s.sync) (told : s'.told c = s.told c)
      (mine : task.HoldsSync) (released : ¬ task'.HoldsSync)

/-- What a task has to know for its step to be an utterance on a connection. -/
structure Speaker (s : Session) (c : Nat) (task : Task) : Prop where
  inside : c < s.connections.length
  on : ∀ c', task.HoldsSync → task.connection? = some c' → c' = c
  past : ∀ p, task = .start p → p.Past c
  late : s.state ≠ .initial ∧ s.state ≠ .startFailed
  regards : ∀ e p, task = .event e p → p.Regards → s.sync.isAnnounced e.uri = true
  about : ∀ n ∈ task.owed, ∃ kind, n.kind? = some kind

namespace Utterance

/-- Nothing is told, and nothing is done about documents. -/
theorem of_silent (sync : s'.sync = s.sync) (told : s'.told c = s.told c)
    (owed : task'.owed = task.owed) : Utterance s c task s' task' :=
  .told [] (sync ▸ .silent) (by simp [told, owed])

/-- An operation is made, and the notification for it is owed. -/
theorem of_made {op : SyncOp} {answer : SyncAnswer} {sync : DocumentSync}
    (done : s.sync.step op = (answer, sync)) (asks : task.Asks op) (same : s'.sync = sync)
    (told : s'.told c = s.told c) (owed : task.owed = [])
    (owed' : task'.owed = answer.notification?.toList) : Utterance s c task s' task' := by
  refine .told answer.notification?.toList ?_ (by simp [told, owed, owed'])
  rw [same]
  exact .made op answer sync asks done asks.kept asks.configured

/-- What is owed is written. -/
theorem of_written {n : Notification} (owed : task.owed = [n]) (sync : s'.sync = s.sync)
    (told : s'.told c = s.told c ++ [n]) (owed' : task'.owed = []) : Utterance s c task s' task' :=
  .told [] (sync ▸ .silent) (by simp [told, owed, owed'])

end Utterance

/-- Taking down tells nothing, and takes everything back. -/
theorem Utterance.of_teardown {p p' : Teardown} {s₁ : Session} (step : TeardownStep s p s₁ p')
    (sync : s'.sync = s₁.sync) (told : s'.told c = s.told c) (idle : ¬ task.HoldsSync)
    (idle' : ¬ task'.HoldsSync) (detached : p = .resetting → task.Detached) :
    Utterance s c task s' task' := by
  rcases step.sync_cases with same | ⟨resetting, free, reset⟩
  · refine .of_silent (sync.trans same) told ?_
    rw [Task.owed_of_not_holds idle, Task.owed_of_not_holds idle']
  · exact .reset (detached resetting) free (sync.trans reset) told idle'

/-- A notification about a document is written, if the connection can be written on. -/
theorem told_writes_notification {n : Notification} (inside : c < s.connections.length)
    (about : ∃ kind, n.kind? = some kind) :
    (s.writes c (.notification n)).told c = s.told c ++ [n] := by
  obtain ⟨kind, tells⟩ := about
  simp [told_writes inside, documentNotifications_notification tells]

theorem Announced.utterance {docs : List Document} {p q : StartPhase} {s₁ : Session}
    (next : Announced s₁ c docs s' p) (sync : s₁.sync = s.sync) (holds : (Task.start q).HoldsSync)
    (told : s₁.told c = s.told c ++ (Task.start q).owed) :
    Utterance s c (.start q) s' (.start p) := by
  cases next with
  | finished passed =>
    have told' : (s₁.unlockSync.unlockStart).told c = s₁.told c := rfl
    exact .told [] (by rw [← sync]; exact .silent) (by simp [told', told, Task.owed])
  | next skipped d rest params sync' split passed opened =>
    have told' : ({ s₁ with sync := sync' } : Session).told c = s₁.told c := rfl
    refine .told _ (.made (.open d) (.opened (some params)) sync' (Or.inl ⟨q, rfl, holds⟩) ?_
      (by simp) (by simp)) ?_
    · simp [DocumentSync.step, ← sync, opened]
    · simp [told', told, Task.owed, SyncAnswer.notification?]

theorem StartStep.utterance {p p' : StartPhase} (step : StartStep now h s t p h' s' p')
    (speaker : Speaker s c (.start p)) : Utterance s c (.start p) s' (.start p') := by
  have talk := step.talk
  have past : p.Past c := speaker.past p rfl
  have inside := speaker.inside
  cases step with
  | passed | refused => exact .of_silent rfl rfl rfl
  -- a speaker is past the beginning
  | begun free ready => exact absurd ready (by simp [speaker.late])
  | greeted c' kind can on =>
    refine .of_silent rfl (talk.told_eq fun n speech => Or.inl ?_) rfl
    obtain ⟨-, rfl⟩ := by simpa [Task.speech?] using speech
    rfl
  | greetedOnly c' can =>
    refine .of_silent rfl (talk.told_eq fun n speech => Or.inl ?_) rfl
    obtain ⟨-, rfl⟩ := by simpa [Task.speech?] using speech
    rfl
  | listed c' _ _ next =>
    obtain rfl : c' = c := past
    exact next.utterance rfl trivial (by simp [Task.owed])
  | announced c' params rest _ _ can next =>
    obtain rfl : c' = c := past
    exact next.utterance rfl trivial (told_writes_notification inside ⟨_, rfl⟩)
  | unwritten c' _ e place cannot =>
    rcases place with ⟨kind, rfl⟩ | ⟨params, rest, rfl⟩ <;> obtain rfl : c' = c := past <;>
      exact .cut _ rfl cannot rfl rfl trivial id
  -- a start that goes down says nothing of documents
  | tore e t' _ t'' step =>
    refine .of_teardown step rfl (talk.told_eq fun n speech => ?_) id id ?_
    · simp [Task.speech?] at speech
    · rintro rfl
      simp [Task.Detached]
  | failed e t' s₁ step | failedQuietly e t' s₁ step | failedLate e t' s₁ step =>
    refine .of_teardown step rfl (talk.told_eq fun n speech => ?_) id id ?_
    · simp [Task.speech?] at speech
    · rintro rfl
      simp [Task.Detached]
  | reported => exact .of_silent rfl rfl rfl
  | retried c' attempt _ _ call place begun =>
    rcases place with ⟨failure, rfl⟩ | ⟨failure, deadline, rfl⟩ <;> exact past.elim
  | gaveUp c' attempt _ failure place =>
    rcases place with ⟨reply, rfl⟩ | ⟨deadline, reply, rfl⟩ <;> exact past.elim
  | _ => exact past.elim

theorem StopStep.utterance {p p' : StopPhase} (step : StopStep now s p s' p') :
    Utterance s c (.stop p) s' (.stop p') := by
  have told : s'.told c = s.told c := step.talk.told_eq fun n speech => by
    cases p <;> simp only [Task.speech?, Option.some.injEq, Prod.mk.injEq, reduceCtorEq] at speech
    obtain ⟨-, rfl⟩ := speech
    exact Or.inl rfl
  have idle : ∀ p, ¬ (Task.stop p).HoldsSync := fun p => id
  have silent : s'.sync = s.sync → Utterance s c (.stop p) s' (.stop p') := fun same =>
    .of_silent same told rfl
  cases step with
  | resetAlone _ free | unasked _ _ _ free => exact .reset trivial free rfl told (idle _)
  | asked _ _ _ free begun => exact .reset trivial free begun.sync told (idle _)
  | called c' call _ call' unanswered step => exact silent step.sync
  | tore t' _ t'' step | stopped t' _ step =>
    exact .of_teardown step rfl told (idle _) (idle _) fun _ => trivial
  | _ => exact silent rfl

theorem WatchStep.utterance {c' : Nat} {p p' : WatchPhase} (step : WatchStep h s c' p h' s' p') :
    Utterance s c (.watch c' p) s' (.watch c' p') := by
  have talk : Talk 0 s (.watch c' p) s' (.watch c' p') := step.talk
  have told : s'.told c = s.told c := talk.told_eq fun n speech => by
    simp [Task.speech?] at speech
  cases step with
  | tore t' _ t'' step =>
    refine .of_teardown step rfl told id id ?_
    rintro rfl
    simp [Task.Detached]
  | _ => exact .of_silent rfl told rfl

theorem EventStep.utterance {e : DocumentEvent} {p p' : EventPhase}
    (step : EventStep now h s t e p s' p') (speaker : Speaker s c (.event e p)) :
    Utterance s c (.event e p) s' (.event e p') := by
  have inside := speaker.inside
  have regards : p.Regards → s.sync.isAnnounced e.uri = true := speaker.regards e p rfl
  cases step with
  | dropped | entered | stranded | passed | refused | regarded => exact .of_silent rfl rfl rfl
  | opened d c' params sync current told => exact .of_made told (Or.inr rfl) rfl rfl rfl rfl
  | sent change c' params sync current told => exact .of_made told rfl rfl rfl rfl rfl
  | staged change c' generation sync current told => exact .of_made told rfl rfl rfl rfl rfl
  | closed uri c' params sync current told => exact .of_made told rfl rfl rfl rfl rfl
  | flushed _ c' _ params sync place told =>
    -- the flushed change goes ahead of what the event itself says
    refine .of_made told (Or.inl ⟨e, p, rfl, rfl⟩) rfl rfl ?_ rfl
    rcases place with ⟨rfl, -⟩ | rfl | ⟨language, rfl⟩ <;> rfl
  | asked _ c' _ _ place =>
    rcases place with ⟨rfl, rfl⟩ | ⟨rfl, language, rfl⟩ <;> exact .of_silent rfl rfl rfl
  | warned uri reason c' _ place =>
    have announced : s.sync.isAnnounced uri = true := by
      rcases place with rfl | ⟨language, rfl⟩ <;> exact regards trivial
    refine .told [willSaveNotice uri reason]
      (.saving _ _ uri (Notification.tells_willSave uri reason) (Or.inl rfl) announced) ?_
    rcases place with rfl | ⟨language, rfl⟩ <;> simp [Task.owed]
  | saved uri text text' c' _ place announced =>
    refine .told [notice "textDocument/didSave" (⟨⟨uri⟩, text'⟩ : DidSaveParams)]
      (.saving _ _ uri (Notification.tells_didSave ⟨⟨uri⟩, text'⟩) (Or.inr rfl) announced) ?_
    rcases place with rfl | rfl <;> simp [Task.owed]
  | left _ c' _ place =>
    rcases place with rfl | rfl | ⟨language, rfl⟩ <;> exact .of_silent rfl rfl rfl
  | ahead _ c' params _ _ can next =>
    obtain rfl := speaker.on c' trivial rfl
    have told := told_writes_notification (n := notice "textDocument/didChange" params) inside
      ⟨_, rfl⟩
    -- after the change that went ahead comes what the event was about
    rcases next with ⟨uri, reason, rfl, rfl, rfl⟩ | ⟨uri, text, rfl, rfl, rfl⟩ | ⟨rfl, rfl⟩
    · refine .told [willSaveNotice uri reason]
        (.saving _ _ uri (Notification.tells_willSave uri reason) (Or.inl rfl) (regards trivial)) ?_
      simp [told, Task.owed]
    · exact .of_written rfl rfl told rfl
    · exact .of_written rfl rfl told rfl
  | wrote _ c' n can =>
    obtain rfl := speaker.on c' trivial rfl
    exact .of_written rfl rfl
      (told_writes_notification inside (speaker.about n (by simp [Task.owed]))) rfl
  | failed _ c' _ error place cannot =>
    rcases place with ⟨params, rfl⟩ | ⟨n, rfl⟩ <;> obtain rfl := speaker.on c' trivial rfl <;>
      exact .cut _ rfl cannot rfl rfl trivial id

theorem DeliveryStep.utterance {uri : String} {generation deadline : Nat} {p p' : DeliveryPhase}
    (step : DeliveryStep now s t uri generation deadline p s' p')
    (speaker : Speaker s c (.delivery uri generation deadline p)) :
    Utterance s c (.delivery uri generation deadline p) s' (.delivery uri generation deadline p') := by
  cases step with
  | lapsed | due | missed | found => exact .of_silent rfl rfl rfl
  | lost params sync free idle taken =>
    exact .dropped uri generation params idle free taken rfl ⟨rfl, rfl⟩
  | taken params sync free running taken =>
    exact .of_made taken ⟨deadline, .locking, rfl⟩ rfl rfl rfl rfl
  | stranded params unused => exact .stranded unused rfl rfl trivial id
  | wrote c' params can =>
    obtain rfl := speaker.on c' trivial rfl
    exact .of_written rfl rfl (told_writes_notification speaker.inside ⟨_, rfl⟩) rfl
  | failed c' params cannot =>
    obtain rfl := speaker.on c' trivial rfl
    exact .cut _ rfl cannot rfl rfl trivial id

/-- A call that begins tells nothing. -/
theorem Called.told {c' : Nat} {call call' : Call} (step : Called now s c' call s' call')
    (fresh : call.phase = .entering) : s'.told c = s.told c := by
  cases step with
  | step connection phase step =>
    refine told_eq ?_
    by_cases here : c = c' ∧ c < s.connections.length
    · obtain ⟨rfl, inside⟩ := here
      have there : (s.setConnection c connection).connection c = connection := by
        simp [setConnection, Session.connection, inside]
      rw [there, step.sent_of_fresh fresh]
    · unfold setConnection Session.connection
      by_cases ne : c' = c
      · rw [List.set_eq_of_length_le (by omega)]
      · rw [List.getElem?_set_ne ne]

theorem QueryStep.utterance {q : EditQuery} {p p' : QueryPhase} (step : QueryStep now h s t q p s' p')
    (speaker : Speaker s c (.query q p)) : Utterance s c (.query q p) s' (.query q p') := by
  have talk := step.talk
  cases step with
  | began _ next =>
    rcases next with rfl | ⟨-, rfl⟩ | ⟨result, rfl⟩ <;> exact .of_silent rfl rfl rfl
  | asked c' _ _ place =>
    rcases place with ⟨rfl, rfl⟩ | ⟨rfl, language, rfl⟩ <;> exact .of_silent rfl rfl rfl
  | agreed _ place => rcases place with rfl | ⟨language, rfl⟩ <;> exact .of_silent rfl rfl rfl
  | ahead c' _ _ _ place next =>
    have owed : (Task.query q p).owed = [] := by
      rcases place with ⟨rfl, -⟩ | rfl | ⟨language, rfl⟩ <;> rfl
    cases next with
    -- a change that waits is told before the request goes out
    | flushed params sync told => exact .of_made told (Or.inr ⟨q, p, rfl, rfl⟩) rfl rfl owed rfl
    | asked _ call nothing begun => exact .of_silent begun.sync (begun.told rfl) owed.symm
  | left _ result place =>
    rcases place with rfl | ⟨-, c', language, rfl⟩ <;> exact .of_silent rfl rfl rfl
  | wrote c' params _ call can begun =>
    obtain rfl := speaker.on c' trivial rfl
    refine .of_written rfl begun.sync ((begun.told rfl).trans ?_) rfl
    exact told_writes_notification speaker.inside ⟨_, rfl⟩
  | failed c' params e cannot =>
    obtain rfl := speaker.on c' trivial rfl
    exact .cut _ rfl cannot rfl rfl trivial id
  | called c' call _ call' unanswered step' =>
    refine .of_silent step'.sync (talk.told_eq fun n speech => ?_) rfl
    simp [Task.speech?] at speech
  | _ => exact .of_silent rfl rfl rfl

theorem RequestStep.utterance {method : String} {params : Option Json} {cancelled : Bool}
    {p p' : RequestPhase} (step : RequestStep now s method params cancelled p s' p') :
    Utterance s c (.request method params cancelled p) s' (.request method params cancelled p') := by
  have told : s'.told c = s.told c := step.talk.told_eq fun n speech => by
    simp [Task.speech?] at speech
  have sync : s'.sync = s.sync := by
    cases step with
    | asked c' _ call current begun => exact begun.sync
    | called c' call _ call' unanswered step => exact step.sync
    | _ => rfl
  exact .of_silent sync told rfl

/-- **What a step tells.** -/
theorem TaskStep.utterance (step : TaskStep now h s t task h' s' task')
    (speaker : Speaker s c task) : Utterance s c task s' task' := by
  cases step with
  | start p _ _ p' step => exact step.utterance speaker
  | stop p _ p' step => exact step.utterance
  | watch c' p _ _ p' step => exact step.utterance
  | event e p _ p' step => exact step.utterance speaker
  | delivery uri generation deadline p _ p' step => exact step.utterance speaker
  | query q p _ p' step => exact step.utterance speaker
  | request method params cancelled p _ p' step => exact step.utterance

end Session

end LanguageClient
