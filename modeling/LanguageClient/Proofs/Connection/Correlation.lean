import LanguageClient.Proofs.Connection.Outcome
/-!
# Requests and their responses

**`requests_correlate`** says what holds of the requests of a connection however its tasks take
turns: no two requests have the same id; a request has one outcome; a response is assigned to the one
request that waits under its number, and changes nothing when there is none; and the server is told
once, at most, that a request is not wanted any more, only of a request that gave up while it waited,
and never of one that was assigned a response.

What is written is followed here; what the numbers and outcomes are is taken from `numbers_after`,
`outcome_stays` and `explained_after`.
-/

namespace LanguageClient

/-- The id of a request that is sent. -/
def Message.requestId? : Message → Option RequestId
  | .request r => some r.id
  | _ => none

/-- Whether a message tells the server that a request is not wanted any more. -/
def Message.isCancellation : Message → Bool
  | .notification n => n.method == Connection.cancelMethod
  | _ => false

/-- Nobody but a call takes a response out of the table. -/
theorem Connection.Effect.reply_stays {c c' : Connection} (effect : c.Effect c') {k : Nat}
    (reply : c.replies.get? k ≠ none) : c'.replies.get? k ≠ none := by
  cases effect with
  | steady same => rwa [same.replies]
  | settled id r place same =>
    rw [same.replies]
    rcases c.settle_cases id r with ⟨l, -, -, settled⟩ | ⟨-, settled⟩
    · rw [settled, Table.get?_put]
      split
      · simp
      · exact reply
    · rwa [settled]
  | drained same =>
    rw [same.replies, Connection.get?_replies_drain]
    split
    · simp
    · exact reply

namespace Call

@[simp] theorem requestId?_request (call : Call) (k : Nat) :
    (Message.request (call.request k)).requestId? = some (.number (UInt64.ofNat k)) := rfl

@[simp] theorem isCancellation_request (call : Call) (k : Nat) :
    (Message.request (call.request k)).isCancellation = false := rfl

@[simp] theorem requestId?_cancelMessage (k : Nat) : (cancelMessage k).requestId? = none := rfl

@[simp] theorem isCancellation_cancelMessage (k : Nat) :
    (cancelMessage k).isCancellation = true := by
  simp [cancelMessage, Message.isCancellation]

theorem cancelMessage_injective : Function.Injective cancelMessage := by
  intro k l same
  have ids : (k : Int) = l := by
    simpa [cancelMessage, Json.object, Json.sortMembers, Json.insertMember] using same
  exact Int.ofNat.inj ids

/-- The number of a call whose request is not sent yet. -/
def unsent? (call : Call) : Option Nat :=
  match call.phase with
  | .admitted k | .registered k => some k
  | _ => none

/-- The number of a call that is about to give up, and the error with which it does. -/
def surrender? (call : Call) : Option (Nat × ClientError) :=
  match call.phase with
  | .abandoning k e | .notifying k e => some (k, e)
  | _ => none

namespace Step

variable {now : Nat} {c c' : Connection} {call call' : Call} {phase : CallPhase} {k : Nat}

theorem unsent?_cases (step : Step now c call c' phase) (place : call'.phase = phase)
    (unsent : call'.unsent? = some k) : call.unsent? = some k ∨ k = c.nextId := by
  cases step with
  | numbered fresh => exact Or.inr (by simpa [unsent?, place] using unsent.symm)
  | registered id before => exact Or.inl (by simpa [unsent?, place, before] using unsent)
  | _ => simp [unsent?, place] at unsent

/-- A call gives up while it waits and has no response. -/
theorem surrender?_cases (step : Step now c call c' phase) (place : call'.phase = phase)
    {e : ClientError} (gives : call'.surrender? = some (k, e)) : call.surrender? = some (k, e) ∨
      ∃ deadline, call.phase = .waiting k deadline ∧ c.replies.get? k = none ∧
        (deadline ≤ now ∨ call.cancelled = true) ∧ e.GaveUp := by
  cases step with
  | gaveUp id deadline e' before noReply why =>
    obtain ⟨rfl, rfl⟩ : id = k ∧ e' = e := by simpa [surrender?, place] using gives
    refine Or.inr ⟨deadline, before, noReply, ?_⟩
    rcases why with ⟨due, rfl⟩ | ⟨fired, rfl⟩
    · exact ⟨Or.inl due, .timedOut _⟩
    · exact ⟨Or.inr fired, .cancelled⟩
  | forgotten id e' before => exact Or.inl (by simpa [surrender?, place, before] using gives)
  | _ => simp [surrender?, place] at gives

/-- A call takes a response out of the table when it ends. -/
theorem reply_stays (step : Step now c call c' phase) (reply : c.replies.get? k ≠ none) :
    c'.replies.get? k ≠ none ∨
      (call.tabled? = some k ∧ { call with phase }.number? = none) := by
  cases step with
  | refused | numbered | turnedAway | registered | unwritten | gaveUp | forgotten => exact Or.inl reply
  | written id _ place wrote =>
    obtain ⟨-, rfl⟩ := Connection.canWrite_of_write wrote
    exact Or.inl reply
  | answered id _ _ place | withdrawn id _ place | late id _ place =>
    by_cases same : id = k
    · exact Or.inr ⟨by simp [tabled?, place, same], rfl⟩
    · exact Or.inl (by simpa [same] using reply)
  | notified id =>
    rcases c.tryWrite_cases (cancelMessage id) with ⟨-, wrote⟩ | ⟨-, failed⟩
    · exact Or.inl (by rwa [wrote])
    · exact Or.inl (by rwa [failed])

end Step

end Call

namespace Dialogue

variable {name : String} {moves : List Move} {d d' : Dialogue}

/-! ## What is written -/

/-- A change writes what does not concern the requests of the client, or the request of a call, or
    that the request of a call is not wanted any more. -/
theorem Change.sent_cases (change : Change d d') :
    (∃ others : List Message, d'.connection.sent = d.connection.sent ++ others ∧
      ∀ m ∈ others, m.requestId? = none ∧ m.isCancellation = false) ∨
    (∃ i call k, d.family i = some call ∧ call.phase = .registered k ∧
      (∀ call', d'.family i = some call' → call'.unsent? = none) ∧
      d'.connection.sent = d.connection.sent ++ [.request (call.request k)]) ∨
    ∃ i call k e, d.family i = some call ∧ call.phase = .notifying k e ∧
      d'.outcome? i = some (.error e) ∧ (∀ k, ¬ Numbered d'.family i k) ∧
      d'.connection.sent = d.connection.sent ++ [Call.cancelMessage k] := by
  cases change with
  | stayed | begun | fired | reached | passed => exact Or.inl ⟨[], by simp, by simp⟩
  | told n other =>
    exact Or.inl ⟨[.notification n], rfl, by simp [Message.requestId?, Message.isCancellation, other]⟩
  | touched c effect =>
    obtain ⟨answers, wrote⟩ := effect.sent
    refine Or.inl ⟨answers.map .response, wrote, fun m among => ?_⟩
    obtain ⟨r, -, rfl⟩ := List.mem_map.mp among
    exact ⟨rfl, rfl⟩
  | stepped i call c phase here step =>
    -- only a step of a call writes for the client: its request, or that it is not wanted any more
    have family := family_set here
      { d with connection := c, calls := d.calls.set i { call with phase } } rfl
    rcases step.sent_cases with same | ⟨k, deadline, before, rfl, wrote⟩ | ⟨k, e, before, rfl, wrote⟩
    · exact Or.inl ⟨[], by simp [same], by simp⟩
    · refine Or.inr (Or.inl ⟨i, call, k, here, before, ?_, wrote⟩)
      simp [family, Call.unsent?]
    · refine Or.inr (Or.inr ⟨i, call, k, e, here, before, ?_, ?_, wrote⟩)
      · simp [outcome?, family, Call.result?]
      · simp [family, Numbered, Call.number?]

/-- The ids of the requests that are sent are numbers that are used up, each of them once. -/
theorem requests_after (moves : List Move) :
    ∃ ks : List Nat, ((machine name).after moves).connection.sent.filterMap Message.requestId? =
        ks.map (fun k => .number (UInt64.ofNat k)) ∧ ks.Nodup ∧
      (∀ k ∈ ks, k < ((machine name).after moves).connection.nextId) ∧
      ∀ i call k, ((machine name).after moves).family i = some call → call.unsent? = some k →
        k ∉ ks := by
  refine run_changes (fun _ d => ∃ ks : List Nat,
      d.connection.sent.filterMap Message.requestId? = ks.map (fun k => .number (UInt64.ofNat k)) ∧
      ks.Nodup ∧ (∀ k ∈ ks, k < d.connection.nextId) ∧
      ∀ i call k, d.family i = some call → call.unsent? = some k → k ∉ ks) ?_ ?_ moves
  · exact ⟨[], by simp [machine]⟩
  · rintro moves move d d' before _ change ⟨ks, sent, nodup, below, unsent⟩
    have correlated := before ▸ @correlated_after name moves
    have later : ∀ k ∈ ks, k < d'.connection.nextId :=
      fun k among => Nat.lt_of_lt_of_le (below k among) change.nextId_le
    have unsent' : ∀ i call k, d'.family i = some call → call.unsent? = some k → k ∉ ks := by
      intro i call' k here' unsent'
      rcases change.at here' with ⟨call, here, same⟩ | ⟨-, fresh⟩ | ⟨call, here, step⟩
      · exact unsent i call k here (by simpa [Call.unsent?, same] using unsent')
      · simp [Call.unsent?, fresh] at unsent'
      · rcases step.unsent?_cases rfl unsent' with old | rfl
        · exact unsent i call k here old
        · exact fun among => absurd (below _ among) (Nat.lt_irrefl _)
    rcases change.sent_cases with ⟨others, wrote, quiet⟩ | ⟨i, call, k, here, place, gone, wrote⟩ |
        ⟨i, call, k, e, here, place, -, -, wrote⟩
    · refine ⟨ks, ?_, nodup, later, unsent'⟩
      rw [wrote, List.filterMap_append, sent,
        List.filterMap_eq_nil_iff.mpr fun m among => (quiet m among).1, List.append_nil]
    · have numbered : Numbered d.family i k := ⟨call, here, by simp [Call.number?, place]⟩
      have new : k ∉ ks := unsent i call k here (by simp [Call.unsent?, place])
      refine ⟨ks ++ [k], by simp [wrote, sent], by simpa using nodup.concat new, ?_, ?_⟩
      · simp only [List.mem_append, List.mem_singleton]
        rintro l (among | rfl)
        · exact later l among
        · exact Nat.lt_of_lt_of_le (correlated.below i l numbered) change.nextId_le
      · intro j call' l here' unsent''
        simp only [List.mem_append, List.mem_singleton, not_or]
        refine ⟨unsent' j call' l here' unsent'', ?_⟩
        rintro rfl
        -- the only request with this number is the one that is just sent
        have number : Numbered d'.family j l := by
          refine ⟨call', here', ?_⟩
          unfold Call.unsent? at unsent''
          unfold Call.number?
          split at unsent'' <;> simp_all
        rcases change.numbered number with was | ⟨next, -⟩
        · obtain rfl := correlated.distinct j i l was numbered
          simp [gone call' here'] at unsent''
        · exact absurd (correlated.below i l numbered) (by omega)
    · exact ⟨ks, by simp [wrote, sent], nodup, later, unsent'⟩

/-! ## Cancellations -/

/-- A call that is about to give up did so while it waited. -/
theorem surrender_after (moves : List Move) {i k : Nat} {call : Call} {e : ClientError}
    (here : ((machine name).after moves).family i = some call)
    (gives : call.surrender? = some (k, e)) :
    (machine name).Once moves (·.GivesUp i k) ∧ e.GaveUp := by
  revert call
  refine run_changes (fun moves d => ∀ {call : Call}, d.family i = some call →
    call.surrender? = some (k, e) → (machine name).Once moves (·.GivesUp i k) ∧ e.GaveUp) ?_ ?_ moves
  · simp [machine, family]
  · intro moves move d d' before _ change known call' here' gives
    have correlated := before ▸ @correlated_after name moves
    rcases change.at here' with ⟨call, here, same⟩ | ⟨-, fresh⟩ | ⟨call, here, step⟩
    · have old := known here (by simpa [Call.surrender?, same] using gives)
      exact ⟨old.1.append [move], old.2⟩
    · simp [Call.surrender?, fresh] at gives
    · rcases step.surrender?_cases rfl gives with old | ⟨deadline, place, noReply, why, error⟩
      · exact ⟨(known here old).1.append [move], (known here old).2⟩
      · have waits := (correlated.tabled i k ⟨call, here, by simp [Call.tabled?, place]⟩).mpr noReply
        have now : d.GivesUp i k := ⟨call, deadline, here, place, waits, why⟩
        exact ⟨(Machine.Once.now (before ▸ now)).append [move], error⟩

/-- A response is fetched by the request that it was assigned to, as its last act. -/
theorem Change.reply_stays (change : Change d d') (h : Correlated d.connection d.family) {k : Nat}
    (reply : d.connection.replies.get? k ≠ none) :
    d'.connection.replies.get? k ≠ none ∨ ∀ i, ¬ Numbered d'.family i k := by
  cases change with
  | stayed | begun | fired | told | reached | passed => exact Or.inl reply
  | touched c effect => exact Or.inl (effect.reply_stays reply)
  | stepped i call c phase here step =>
    rcases step.reply_stays reply with stays | ⟨tabled, ended⟩
    · exact Or.inl stays
    · refine Or.inr fun j numbered => ?_
      rw [family_set here { d with connection := c, calls := d.calls.set i _ } rfl,
        numbered_update] at numbered
      split at numbered
      · simp [ended] at numbered
      · rename_i other
        exact other (h.distinct j i k numbered ⟨call, here, Call.number?_of_tabled? tabled⟩)

/-- A number that had a response has it as long as a request uses the number. -/
theorem answered_after (moves : List Move) {k : Nat}
    (once : (machine name).Once moves (·.connection.replies.get? k ≠ none)) :
    k < ((machine name).after moves).connection.nextId ∧
      ∀ i, Numbered ((machine name).after moves).family i k →
        ((machine name).after moves).connection.replies.get? k ≠ none := by
  revert once
  refine run_changes (fun moves d =>
    (machine name).Once moves (·.connection.replies.get? k ≠ none) →
      k < d.connection.nextId ∧ ∀ i, Numbered d.family i k → d.connection.replies.get? k ≠ none)
    ?_ ?_ moves
  · simp [Machine.once_nil, machine]
  · intro moves move d d' before after change known once
    rw [Machine.once_concat, after] at once
    rcases once with once | now
    · obtain ⟨below, answered⟩ := known once
      refine ⟨Nat.lt_of_lt_of_le below change.nextId_le, fun i numbered => ?_⟩
      have was : Numbered d.family i k :=
        (change.numbered numbered).resolve_right fun next => absurd below (by omega)
      have correlated := before ▸ @correlated_after name moves
      exact (change.reply_stays correlated (answered i was)).resolve_right
        fun unused => unused i numbered
    · have correlated' := after ▸ @correlated_after name (moves ++ [move])
      obtain ⟨i, tabled⟩ := correlated'.owned k (Or.inr now)
      exact ⟨correlated'.below i k tabled.numbered, fun _ _ => now⟩

/-- A number is used up by a request that gave up while it waited, and never had a response. -/
structure GivenUp (name : String) (moves : List Move) (d : Dialogue) (k : Nat) : Prop where
  below : k < d.connection.nextId
  unused : ∀ i, ¬ Numbered d.family i k
  why : ∃ i e, (machine name).Once moves (·.GivesUp i k) ∧ d.outcome? i = some (.error e) ∧ e.GaveUp
  unanswered : ¬ (machine name).Once moves (·.connection.replies.get? k ≠ none)

theorem GivenUp.change {k : Nat} {move : Move} (h : GivenUp name moves d k)
    (before : (machine name).after moves = d)
    (after : (machine name).after (moves ++ [move]) = d') (change : Change d d') :
    GivenUp name (moves ++ [move]) d' k := by
  have unused : ∀ i, ¬ Numbered d'.family i k := fun i numbered =>
    (change.numbered numbered).elim (h.unused i) fun next => absurd h.below (by omega)
  refine ⟨Nat.lt_of_lt_of_le h.below change.nextId_le, unused, ?_, fun once => ?_⟩
  · obtain ⟨i, e, once, outcome, error⟩ := h.why
    have told : (machine name).Once (moves ++ [move]) (·.outcome? i = some (.error e)) :=
      (Machine.Once.now (before ▸ outcome)).append [move]
    have stays := outcome_stays (moves ++ [move]) told
    exact ⟨i, e, once.append [move], after ▸ stays, error⟩
  · rw [Machine.once_concat, after] at once
    refine once.elim h.unanswered fun now => ?_
    have correlated' := after ▸ @correlated_after name (moves ++ [move])
    obtain ⟨i, tabled⟩ := correlated'.owned k (Or.inr now)
    exact unused i tabled.numbered

/-- The server is told of a number once, at most, and only after the request gave up. -/
theorem cancellations_after (moves : List Move) :
    ∃ ks : List Nat, ((machine name).after moves).connection.sent.filter Message.isCancellation =
        ks.map Call.cancelMessage ∧ ks.Nodup ∧
      ∀ k ∈ ks, GivenUp name moves ((machine name).after moves) k := by
  refine run_changes (fun moves d => ∃ ks : List Nat,
    d.connection.sent.filter Message.isCancellation = ks.map Call.cancelMessage ∧ ks.Nodup ∧
      ∀ k ∈ ks, GivenUp name moves d k) ?_ ?_ moves
  · exact ⟨[], by simp [machine]⟩
  · rintro moves move d d' before after change ⟨ks, sent, nodup, givenUp⟩
    have kept : ∀ k ∈ ks, GivenUp name (moves ++ [move]) d' k := fun k among =>
      (givenUp k among).change before after change
    rcases change.sent_cases with ⟨others, wrote, quiet⟩ | ⟨i, call, k, -, -, -, wrote⟩ |
        ⟨i, call, k, e, here, place, outcome, ended, wrote⟩
    · have none : others.filter Message.isCancellation = [] :=
        List.filter_eq_nil_iff.mpr fun m among => by simp [(quiet m among).2]
      exact ⟨ks, by rw [wrote, List.filter_append, none, List.append_nil, sent], nodup, kept⟩
    · exact ⟨ks, by simp [wrote, sent], nodup, kept⟩
    · have correlated := before ▸ @correlated_after name moves
      have numbered : Numbered d.family i k := ⟨call, here, by simp [Call.number?, place]⟩
      have apart : ¬ Tabled d.family i k := by
        rintro ⟨call₁, here₁, tabled⟩
        obtain rfl : call = call₁ := by simpa [here] using here₁
        simp [Call.tabled?, place] at tabled
      have gives : call.surrender? = some (k, e) := by simp [Call.surrender?, place]
      obtain ⟨once, error⟩ := @surrender_after name moves i k call e (before ▸ here) gives
      -- nobody else had the number
      have unused : ∀ j, ¬ Numbered d'.family j k := fun j numbered' => by
        rcases change.numbered numbered' with was | ⟨next, -⟩
        · obtain rfl := correlated.distinct j i k was numbered
          exact ended k numbered'
        · exact absurd (correlated.below i k numbered) (by omega)
      have new : GivenUp name (moves ++ [move]) d' k := by
        refine ⟨Nat.lt_of_lt_of_le (correlated.below i k numbered) change.nextId_le, unused,
          ⟨i, e, once.append [move], outcome, error⟩, fun answered => ?_⟩
        rw [Machine.once_concat, after] at answered
        have idle := (correlated.untabled i k numbered apart).2
        rcases answered with earlier | now
        · have still := (answered_after moves earlier).2 i (before ▸ numbered)
          rw [before] at still
          exact still idle
        · have correlated' := after ▸ @correlated_after name (moves ++ [move])
          obtain ⟨j, tabled⟩ := correlated'.owned k (Or.inr now)
          exact unused j tabled.numbered
      refine ⟨ks ++ [k], by simp [wrote, sent], ?_, ?_⟩
      · simpa using nodup.concat fun among => (givenUp k among).unused i numbered
      · simp only [List.mem_append, List.mem_singleton]
        rintro l (among | rfl)
        · exact kept l among
        · exact new

/-! ## Assigning responses -/

/-- The next step of the read loop assigns the response to the one request that waits under the
    number of its id, or drops the response if there is none. -/
def Settles (d : Dialogue) (id : RequestId) (r : Response) : Prop :=
  (∃ i k, id.asNumber = some k ∧ d.Waits i k ∧ (∀ j, d.Waits j k → j = i) ∧
    d.step .read = { d with
      connection := { d.connection with
        pending := d.connection.pending.erase k
        replies := d.connection.replies.put k r
        readPhase := .reading } }) ∨
  ((∀ i k, id.asNumber = some k → ¬ d.Waits i k) ∧
    d.step .read = { d with connection := { d.connection with readPhase := .reading } })

theorem settles_after (moves : List Move) {id : RequestId} {r : Response}
    (place : ((machine name).after moves).connection.readPhase = .settling id r) :
    ((machine name).after moves).Settles id r := by
  have correlated := @correlated_after name moves
  generalize (machine name).after moves = d at place correlated ⊢
  have read : d.step .read =
      { d with connection := { d.connection.settle id r with readPhase := .reading } } := by
    simp [step, touch, Connection.stepRead, place]
  rcases d.connection.settle_cases id r with ⟨k, number, waits, settled⟩ | ⟨idle, settled⟩
  · obtain ⟨i, tabled⟩ := correlated.owned k (Or.inl waits)
    refine Or.inl ⟨i, k, number, ⟨tabled.numbered, waits⟩, fun j other => ?_, ?_⟩
    · exact correlated.distinct j i k other.1 tabled.numbered
    · rw [read, settled]
  · exact Or.inr ⟨fun i k number waiting => idle k number waiting.2, by rw [read, settled]⟩

/-- A response of which the server was told that it is not wanted is dropped. -/
theorem GivenUp.not_waits {k : Nat} (h : GivenUp name moves d k) (i : Nat) : ¬ d.Waits i k :=
  fun waiting => h.unused i waiting.1

/-! ## The main result -/

/-- Numbers of requests are different as ids on the wire, too, when there are not too many. -/
theorem ofNat_injOn {k l : Nat} (hk : k < 2 ^ 64) (hl : l < 2 ^ 64)
    (same : UInt64.ofNat k = UInt64.ofNat l) : k = l := by
  have := congrArg UInt64.toNat same
  rwa [UInt64.toNat_ofNat_of_lt' hk, UInt64.toNat_ofNat_of_lt' hl] at this

/-- **Requests and their responses.**  After every run of a connection with fewer than `2 ^ 64`
    requests, whatever the turns of its tasks:

    * No id is sent with two requests, and no two requests ever have the same id.
    * An outcome of a request stays its only one, and it is that of a response that was assigned to
      this request, or an error of its own.
    * A response that is read without an id changes nothing, and one with an id is assigned to the
      one request that waits under its number, or changes nothing.
    * The cancellations that are sent have different ids; each is of a request that gave up while it
      waited and failed for that reason, that never had a response, and whose responses, if any
      come, are dropped. -/
theorem requests_correlate (name : String) (moves : List Move)
    (few : moves.countP Move.isRequest < 2 ^ 64) :
    let run := machine name
    let d := run.after moves
    (d.connection.sent.filterMap Message.requestId?).Nodup ∧
    (∀ i j k l, run.Once moves (Numbered ·.family i k) → run.Once moves (Numbered ·.family j l) →
      UInt64.ofNat k = UInt64.ofNat l → i = j ∧ k = l) ∧
    (∀ i result, run.Once moves (·.outcome? i = some result) →
      d.outcome? i = some result ∧ Explained name moves i result) ∧
    (∀ r reader, d.connection.readPhase = .reading → d.connection.shutdown = false →
      d.connection.reader.read = .read (.response r) reader →
      d.step .read = { d with
        connection := { d.connection with
          reader
          readPhase := match r.id with
            | some id => .settling id r
            | none => .reading } }) ∧
    (∀ id r, d.connection.readPhase = .settling id r → d.Settles id r) ∧
    ∃ ks : List Nat, d.connection.sent.filter Message.isCancellation = ks.map Call.cancelMessage ∧
      (ks.map UInt64.ofNat).Nodup ∧
      ∀ k ∈ ks,
        (∃ i e, run.Once moves (·.GivesUp i k) ∧ d.outcome? i = some (.error e) ∧ e.GaveUp) ∧
        (¬ run.Once moves (·.connection.replies.get? k ≠ none)) ∧
        ∀ id r, d.connection.readPhase = .settling id r → id.asNumber = some k →
          d.step .read = { d with connection := { d.connection with readPhase := .reading } } := by
  intro run d
  -- ids are numbers of sixty-four bits, and with so few requests no two coincide
  have bound : ∀ {k}, k < d.connection.nextId → k < 2 ^ 64 := fun below =>
    Nat.lt_of_lt_of_le below (Nat.le_trans (nextId_after moves) (by omega))
  obtain ⟨owned, distinct⟩ := @numbers_after name moves
  refine ⟨?_, ?_, ?_, ?_, fun id r => settles_after moves, ?_⟩
  · obtain ⟨ks, sent, nodup, below, -⟩ := @requests_after name moves
    rw [sent]
    refine nodup.map_on fun k hk l hl same => ?_
    exact ofNat_injOn (bound (below k hk)) (bound (below l hl)) (by simpa using same)
  · intro i j k l once once' same
    obtain rfl : k = l := ofNat_injOn (bound (owned i k once).1) (bound (owned j l once').1) same
    exact ⟨distinct i j k once once', rfl⟩
  · intro i result once
    have outcome := outcome_stays moves once
    exact ⟨outcome, (explained_after moves).2 i result outcome⟩
  · intro r reader place open' read
    simp only [step, touch, Connection.stepRead, place, open', read]
    cases id : r.id <;> simp [Connection.phaseFor, id]
  · obtain ⟨ks, sent, nodup, givenUp⟩ := @cancellations_after name moves
    refine ⟨ks, sent, nodup.map_on fun k hk l hl same => ?_, fun k among => ?_⟩
    · exact ofNat_injOn (bound (givenUp k hk).below) (bound (givenUp l hl).below) same
    -- nobody waits any more for what was given up, so a late response is dropped
    · have gone := givenUp k among
      refine ⟨gone.why, gone.unanswered, fun id r place number => ?_⟩
      rcases settles_after moves place with ⟨i, l, number', waiting, -⟩ | ⟨-, dropped⟩
      · obtain rfl : k = l := by simpa [number] using number'
        exact absurd waiting (gone.not_waits i)
      · exact dropped

/-- A request whose token fires while it waits, and another one after it. -/
def crossing : List Move :=
  [.listen, .request "textDocument/hover" none false, .call 0, .call 0, .call 0, .fire 0, .call 0,
    .call 0, .call 0, .request "shutdown" none false, .call 1, .call 1, .call 1]

/-- The token wins: the server is told, the request fails, and another one has the next id. -/
theorem requests_correlate_crossing :
    crossing.countP Move.isRequest = 2 ∧
    ((machine "rust").after crossing).connection.sent.filterMap Message.requestId? =
      [.number 1, .number 2] ∧
    ((machine "rust").after crossing).connection.sent.filter Message.isCancellation =
      [Call.cancelMessage 1] ∧
    ((machine "rust").after crossing).outcome? 0 = some (.error .cancelled) ∧
    Explained "rust" crossing 0 (.error .cancelled) ∧
    ¬ (machine "rust").Once crossing (·.connection.replies.get? 1 ≠ none) := by
  have law := requests_correlate "rust" crossing (by decide)
  have cancellations : ((machine "rust").after crossing).connection.sent.filter
      Message.isCancellation = [Call.cancelMessage 1] := by rfl
  have outcome : ((machine "rust").after crossing).outcome? 0 = some (.error .cancelled) := by rfl
  refine ⟨by decide, by rfl, cancellations, outcome,
    (law.2.2.1 0 _ (Machine.Once.now outcome)).2, ?_⟩
  obtain ⟨ks, sent, -, each⟩ := law.2.2.2.2.2
  have written : Call.cancelMessage 1 ∈ ks.map Call.cancelMessage := by
    rw [← sent, cancellations]
    simp
  obtain ⟨k, among, same⟩ := List.mem_map.mp written
  rw [Call.cancelMessage_injective same] at among
  exact (each 1 among).2.1

end Dialogue

end LanguageClient
