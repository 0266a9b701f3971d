import LanguageClient.Proofs.Connection.Dialogue
import Mathlib.Data.List.Count
/-!
# Requests, their numbers and their outcomes

The requests of the client race with the responses of the server, with their own time and tokens,
with failing writes and with the end of the connection, all of which want to take the same number
out of the same table.  The facts about the present of a `Dialogue` follow from `Correlated`.  Those
about its past are invariants over runs, one section each: an outcome stays and comes from a response
that was assigned to this request, or from an error of its own; and a number belongs to one request
for ever.
-/

namespace LanguageClient

/-- Why a call that gave up has failed. -/
inductive ClientError.GaveUp : ClientError → Prop where
  | cancelled : GaveUp .cancelled
  | timedOut (reason : String) : GaveUp (.timeout reason)

/-- Why a call fails without a response of the server. -/
inductive ClientError.Own (name : String) : ClientError → Prop where
  | gaveUp {e : ClientError} (h : e.GaveUp) : Own name e
  | terminated : Own name (.terminated name)
  | notConnected : Own name .notConnected
  | brokenPipe : Own name (.system .brokenPipe)

namespace Call

/-- The error with which a call is about to fail. -/
def error? (call : Call) : Option ClientError :=
  match call.phase with
  | .withdrawing _ e | .abandoning _ e | .notifying _ e => some e
  | _ => none

/-- Whether a call has taken its first step. -/
def hasBegun (call : Call) : Bool :=
  match call.phase with
  | .entering => false
  | _ => true

theorem hasBegun_of_number? {call : Call} {k : Nat} (number : call.number? = some k) :
    call.hasBegun = true := by
  unfold number? at number
  unfold hasBegun
  split at number <;> simp_all

namespace Step

variable {now : Nat} {c c' : Connection} {call call' : Call} {phase : CallPhase}

/-- The error with which a call fails is that it gave up, or that it could not be written. -/
theorem error?_cases (step : Step now c call c' phase) (place : call'.phase = phase)
    {e : ClientError} (error : call'.error? = some e) : call.error? = some e ∨ e.GaveUp ∨
      e = .notConnected ∨ e = .system .brokenPipe := by
  cases step with
  | unwritten id e' before failed =>
    obtain rfl : e' = e := by simpa [error?, place] using error
    exact Or.inr (Or.inr (Connection.canWrite_eq_false_of_write failed).2)
  | gaveUp id deadline e' before noReply why =>
    obtain rfl : e' = e := by simpa [error?, place] using error
    rcases why with ⟨-, rfl⟩ | ⟨-, rfl⟩
    · exact Or.inr (Or.inl (.timedOut _))
    · exact Or.inr (Or.inl .cancelled)
  | forgotten id e' before =>
    exact Or.inl (by simpa [error?, place, before] using error)
  | _ => simp [error?, place] at error

theorem own_of_error? (step : Step now c call c' phase) (place : call'.phase = phase)
    {e : ClientError} (error : call'.error? = some e) : call.error? = some e ∨ e.Own c.name := by
  rcases step.error?_cases place error with old | gaveUp | rfl | rfl
  · exact Or.inl old
  · exact Or.inr (.gaveUp gaveUp)
  · exact Or.inr .notConnected
  · exact Or.inr .brokenPipe

/-- A call ends with the response that it fetches, because the connection has ended, or with an error
    that it had before or with which it does not begin. -/
theorem ended_cases (step : Step now c call c' phase) (place : call'.phase = phase)
    {result : Except ClientError Json} (ended : call'.result? = some result) :
    (∃ k r, call.tabled? = some k ∧ c.replies.get? k = some r ∧ result = outcomeOf c r) ∨
    (c.terminated = true ∧ result = .error c.terminatedError) ∨
    ∃ e, result = .error e ∧ (call.error? = some e ∨ e = .cancelled) := by
  cases step with
  | refused e fresh why =>
    obtain rfl : .error e = result := by simpa [result?, place] using ended
    rcases why with ⟨past, rfl⟩ | ⟨-, rfl⟩
    · exact Or.inr (Or.inl ⟨past, rfl⟩)
    · exact Or.inr (Or.inr ⟨_, rfl, Or.inr rfl⟩)
  | turnedAway id before past =>
    obtain rfl : .error c.terminatedError = result := by simpa [result?, place] using ended
    exact Or.inr (Or.inl ⟨past, rfl⟩)
  | answered id deadline r before reply =>
    obtain rfl : outcomeOf c r = result := by simpa [result?, place] using ended
    exact Or.inl ⟨id, r, by simp [tabled?, before], reply, rfl⟩
  | withdrawn id e before | late id e before | notified id e before =>
    obtain rfl : .error e = result := by simpa [result?, place] using ended
    exact Or.inr (Or.inr ⟨e, rfl, Or.inl (by simp [error?, before])⟩)
  | _ => simp [result?, place] at ended

/-- A call ends with the response that it fetches, or with an error of its own. -/
theorem result_cases (step : Step now c call c' phase) (place : call'.phase = phase)
    {result : Except ClientError Json} (ended : call'.result? = some result) :
    (∃ k r, call.tabled? = some k ∧ c.replies.get? k = some r ∧ result = outcomeOf c r) ∨
    ∃ e, result = .error e ∧ (call.error? = some e ∨ e.Own c.name) := by
  rcases step.ended_cases place ended with fetched | ⟨-, rfl⟩ | ⟨e, rfl, old | rfl⟩
  · exact Or.inl fetched
  · exact Or.inr ⟨_, rfl, Or.inr .terminated⟩
  · exact Or.inr ⟨e, rfl, Or.inl old⟩
  · exact Or.inr ⟨_, rfl, Or.inr (.gaveUp .cancelled)⟩

/-- A call that has ended takes no step. -/
theorem result?_eq_none (step : Step now c call c' phase) : call.result? = none := by
  cases step <;> simp_all [result?]

/-- A number is kept, or is the next one and given with the first step. -/
theorem number_cases (step : Step now c call c' phase) (place : call'.phase = phase) {k : Nat}
    (number : call'.number? = some k) : call.number? = some k ∨
      (call.phase = .entering ∧ k = c.nextId ∧ c'.nextId = k + 1) := by
  cases step with
  | numbered fresh =>
    obtain rfl : c.nextId = k := by simpa [Call.number?, place] using number
    exact Or.inr ⟨fresh, rfl, rfl⟩
  | _ => simp_all [Call.number?]

theorem hasBegun (step : Step now c call c' phase) (place : call'.phase = phase) :
    call'.hasBegun = true := by
  cases step <;> simp_all [Call.hasBegun]

end Step

end Call

namespace Dialogue

variable {name : String} {moves : List Move} {d d' : Dialogue}

/-- A request waits for its response. -/
def Waits (d : Dialogue) (i k : Nat) : Prop :=
  Numbered d.family i k ∧ k ∈ d.connection.pending

/-- The read loop is about to assign a response to a request that waits. -/
def Assigns (d : Dialogue) (i k : Nat) (r : Response) : Prop :=
  ∃ id, d.connection.readPhase = .settling id r ∧ id.asNumber = some k ∧ d.Waits i k

/-- A request gives up while it waits: its time has run out, or its token has fired. -/
def GivesUp (d : Dialogue) (i k : Nat) : Prop :=
  ∃ call deadline, d.family i = some call ∧ call.phase = .waiting k deadline ∧
    k ∈ d.connection.pending ∧ (deadline ≤ d.now ∨ call.cancelled = true)

/-! ## Runs -/

/-- A property of runs that every change keeps holds after every run. -/
theorem run_changes (inv : List Move → Dialogue → Prop) (start : inv [] (machine name).start)
    (change : ∀ moves move d d', (machine name).after moves = d →
      (machine name).after (moves ++ [move]) = d' → Change d d' → inv moves d →
      inv (moves ++ [move]) d')
    (moves : List Move) : inv moves ((machine name).after moves) := by
  refine (machine name).run_induction inv start (fun moves move h => ?_) moves
  refine change moves move _ _ rfl rfl ?_ h
  rw [Machine.after_concat]
  exact step_change _ move

theorem Change.correlated (change : Change d d') (h : Correlated d.connection d.family) :
    Correlated d'.connection d'.family := by
  cases change with
  | stayed => exact h
  | begun call fresh =>
    obtain ⟨new, family⟩ := family_concat { d with calls := d.calls ++ [call] } rfl
    rw [family]
    exact h.begin new (by simp [Call.number?, fresh])
  | fired i call here =>
    rw [family_set here { d with calls := d.calls.set i _ } rfl]
    exact h.move here rfl rfl
  | stepped i call c phase here step =>
    rw [family_set here { d with connection := c, calls := d.calls.set i _ } rfl]
    exact h.step here step
  | touched c effect => exact h.effect effect
  | told n other => exact h.congr rfl rfl rfl
  | reached gone => exact h.congr rfl rfl rfl
  | passed now => exact h

theorem correlated_after (moves : List Move) :
    Correlated ((machine name).after moves).connection ((machine name).after moves).family := by
  refine run_changes (fun _ d => Correlated d.connection d.family) ?_ ?_ moves
  · constructor <;> simp [machine, Numbered, Tabled, family]
  · exact fun _ _ d d' _ _ change h => change.correlated h

theorem Change.name_eq (change : Change d d') : d'.connection.name = d.connection.name := by
  cases change with
  | stayed | begun | fired | told | reached | passed => rfl
  | stepped i call c phase here step => exact step.name
  | touched c effect => exact effect.name

theorem name_after (moves : List Move) : ((machine name).after moves).connection.name = name := by
  refine run_changes (fun _ d => d.connection.name = name) rfl ?_ moves
  exact fun _ _ d d' _ _ change h => change.name_eq.trans h

/-- What a change does to one request: it stays where it stands, begins, or takes a step. -/
theorem Change.at (change : Change d d') {i : Nat} {call' : Call} (here' : d'.family i = some call') :
    (∃ call, d.family i = some call ∧ call'.phase = call.phase) ∨
    (d.family i = none ∧ call'.phase = .entering) ∨
    ∃ call, d.family i = some call ∧
      Call.Step d.now d.connection call d'.connection call'.phase := by
  cases change with
  | stayed | touched | told | reached | passed => exact Or.inl ⟨call', here', rfl⟩
  | begun call fresh =>
    obtain ⟨new, family⟩ := family_concat { d with calls := d.calls ++ [call] } rfl
    rw [family] at here'
    by_cases same : i = d.calls.length
    · subst same
      obtain rfl : call = call' := by simpa using here'
      exact Or.inr (Or.inl ⟨new, fresh⟩)
    · exact Or.inl ⟨call', by simpa [same] using here', rfl⟩
  | fired j call here =>
    rw [family_set here { d with calls := d.calls.set j _ } rfl] at here'
    -- only the request whose token fired is another one now, and it stands where it stood
    by_cases same : i = j
    · subst same
      obtain rfl : _ = call' := by simpa using here'
      exact Or.inl ⟨call, here, rfl⟩
    · exact Or.inl ⟨call', by simpa [same] using here', rfl⟩
  | stepped j call c phase here step =>
    rw [family_set here { d with connection := c, calls := d.calls.set j _ } rfl] at here'
    by_cases same : i = j
    · subst same
      obtain rfl : _ = call' := by simpa using here'
      exact Or.inr (Or.inr ⟨call, here, step⟩)
    · exact Or.inl ⟨call', by simpa [same] using here', rfl⟩

/-- A request stays, and is where it stood or takes a step. -/
theorem Change.kept (change : Change d d') {i : Nat} {call : Call} (here : d.family i = some call) :
    ∃ call', d'.family i = some call' ∧ (call'.phase = call.phase ∨
      Call.Step d.now d.connection call d'.connection call'.phase) := by
  have there : ∃ call', d'.family i = some call' := by
    cases change with
    | stayed | touched | told | reached | passed => exact ⟨call, here⟩
    | begun new fresh =>
      exact ⟨call, by simpa [family, List.getElem?_append, (List.getElem?_eq_some_iff.mp here).1]
        using here⟩
    | fired j _ here' | stepped j _ _ _ here' =>
      by_cases same : i = j
      · subst same
        simp [family, (List.getElem?_eq_some_iff.mp here).1]
      · exact ⟨call, by simpa [family, List.getElem?_set_ne (Ne.symm same)] using here⟩
  obtain ⟨call', here'⟩ := there
  refine ⟨call', here', ?_⟩
  rcases change.at here' with ⟨call₁, here₁, same⟩ | ⟨none, -⟩ | ⟨call₁, here₁, step⟩
  · rw [here, Option.some.injEq] at here₁
    exact Or.inl (here₁ ▸ same)
  · simp [here] at none
  · rw [here, Option.some.injEq] at here₁
    exact Or.inr (here₁ ▸ step)

/-! ## Responses and outcomes -/

/-- What is known of a response that a request has, once it is assigned. -/
def Source (name : String) (moves : List Move) (i k : Nat) (r : Response) : Prop :=
  (machine name).Once moves (·.Assigns i k r) ∨
    ∃ c : Connection, c.name = name ∧ r = c.terminationResponse k

theorem Source.append {i k : Nat} {r : Response} (h : Source name moves i k r) (more : List Move) :
    Source name (moves ++ more) i k r :=
  h.imp (fun once => once.append more) id

theorem sourced_after (moves : List Move) :
    Sourced ((machine name).after moves).connection ((machine name).after moves).family
      (Source name moves) := by
  refine run_changes (fun moves d => Sourced d.connection d.family (Source name moves))
    ?_ ?_ moves
  · intro i k r tabled
    simp [machine, Tabled, family] at tabled
  · intro moves move d d' before _ change h
    -- a table that was in order before the change says where each response came from
    have correlated := before ▸ @correlated_after name moves
    have named := before ▸ @name_after name moves
    have known := h.mono fun i k r source => Source.append source [move]
    cases change with
    | stayed | told | reached | passed => exact known
    | begun call fresh =>
      intro i k r tabled reply
      obtain ⟨-, family⟩ := family_concat { d with calls := d.calls ++ [call] } rfl
      rw [family, tabled_update] at tabled
      split at tabled
      · simp [Call.tabled?, fresh] at tabled
      · exact known i k r tabled reply
    | fired i call here =>
      intro j k r tabled reply
      rw [family_set here { d with calls := d.calls.set i _ } rfl, tabled_update] at tabled
      split at tabled
      · rename_i same
        subst same
        exact known j k r ⟨call, here, tabled⟩ reply
      · exact known j k r tabled reply
    | stepped i call c phase here step =>
      rw [family_set here { d with connection := c, calls := d.calls.set i _ } rfl]
      exact known.step correlated here step
    | touched c effect =>
      refine known.effect effect ?_ ?_
      · intro id i k r place number waits tabled
        exact Or.inl ((Machine.Once.now (before ▸ ⟨id, place, number, tabled.numbered, waits⟩)).append
          [move])
      · exact fun i k _ _ => Or.inr ⟨d.connection, named, rfl⟩

/-- How an outcome came about: by a response that was assigned to the request, or without one. -/
def Explained (name : String) (moves : List Move) (i : Nat) (result : Except ClientError Json) :
    Prop :=
  (∃ k r, (machine name).Once moves (·.Assigns i k r) ∧ result = Call.outcomeOf { name } r) ∨
    ∃ e, result = .error e ∧ e.Own name

theorem Explained.append {i : Nat} {result : Except ClientError Json}
    (h : Explained name moves i result) (more : List Move) :
    Explained name (moves ++ more) i result :=
  h.imp (fun ⟨k, r, once, same⟩ => ⟨k, r, once.append more, same⟩) id

theorem outcomeOf_eq {c : Connection} (named : c.name = name) (r : Response) :
    Call.outcomeOf c r = Call.outcomeOf { name } r := by
  simp [Call.outcomeOf, Connection.terminatedError, named]

/-- A response that was assigned explains the outcome that it leads to. -/
theorem Source.explains {i k : Nat} {r : Response} (h : Source name moves i k r) :
    Explained name moves i (Call.outcomeOf { name } r) := by
  rcases h with once | ⟨c, named, rfl⟩
  · exact Or.inl ⟨k, r, once, rfl⟩
  · refine Or.inr ⟨.terminated name, ?_, .terminated⟩
    simp [Call.outcomeOf, Connection.terminationResponse, Response.failure, Response.outcome,
      Connection.terminatedError]

theorem explained_after (moves : List Move) :
    (∀ i call e, ((machine name).after moves).family i = some call → call.error? = some e →
      e.Own name) ∧
    ∀ i result, ((machine name).after moves).outcome? i = some result →
      Explained name moves i result := by
  refine run_changes (fun moves d =>
    (∀ i call e, d.family i = some call → call.error? = some e → e.Own name) ∧
    ∀ i result, d.outcome? i = some result → Explained name moves i result) ?_ ?_ moves
  · simp [machine, family, outcome?]
  · rintro moves move d d' before _ change ⟨own, explained⟩
    have named := before ▸ @name_after name moves
    have sourced := before ▸ @sourced_after name moves
    refine ⟨fun i call' e here' error => ?_, fun i result ended => ?_⟩
    · rcases change.at here' with ⟨call, here, same⟩ | ⟨-, fresh⟩ | ⟨call, here, step⟩
      · exact own i call e here (by simpa [Call.error?, same] using error)
      · simp [Call.error?, fresh] at error
      · rcases step.own_of_error? rfl error with old | new
        · exact own i call e here old
        · exact named ▸ new
    · obtain ⟨call', here', ended⟩ := Option.bind_eq_some_iff.mp ended
      rcases change.at here' with ⟨call, here, same⟩ | ⟨-, fresh⟩ | ⟨call, here, step⟩
      · refine (explained i result ?_).append [move]
        simpa [outcome?, here, Call.result?, same] using ended
      · simp [Call.result?, fresh] at ended
      -- an outcome comes of a response, or of an error the request had already
      · rcases step.result_cases rfl ended with ⟨k, r, tabled, reply, rfl⟩ | ⟨e, rfl, error⟩
        · rw [outcomeOf_eq named]
          exact (sourced i k r ⟨call, here, tabled⟩ reply).explains.append [move]
        · exact Or.inr ⟨e, rfl, error.elim (own i call e here) fun new => named ▸ new⟩

/-- An outcome stays. -/
theorem outcome_stays (moves : List Move) {i : Nat} {result : Except ClientError Json}
    (once : (machine name).Once moves fun y => y.outcome? i = some result) :
    ((machine name).after moves).outcome? i = some result := by
  revert once
  refine run_changes (fun moves d =>
    ((machine name).Once moves fun y => y.outcome? i = some result) → d.outcome? i = some result)
    ?_ ?_ moves
  · exact Machine.once_nil.mp
  · intro moves move d d' _ after change stays once
    rw [Machine.once_concat, after] at once
    rcases once with once | now
    · obtain ⟨call, here, ended⟩ := Option.bind_eq_some_iff.mp (stays once)
      obtain ⟨call', here', same | step⟩ := change.kept here
      · simpa [outcome?, here', Call.result?, same] using ended
      · simp [step.result?_eq_none] at ended
    · exact now

/-! ## Ids -/

/-- What a change does to the numbers: one request may get the next one with its first step. -/
theorem Change.numbered (change : Change d d') {i k : Nat} (numbered : Numbered d'.family i k) :
    Numbered d.family i k ∨ (k = d.connection.nextId ∧ d'.connection.nextId = k + 1 ∧
      ∃ call, d.family i = some call ∧ call.phase = .entering) := by
  obtain ⟨call', here', number⟩ := numbered
  rcases change.at here' with ⟨call, here, same⟩ | ⟨-, fresh⟩ | ⟨call, here, step⟩
  · exact Or.inl ⟨call, here, by simpa [Call.number?, same] using number⟩
  · simp [Call.number?, fresh] at number
  · rcases step.number_cases rfl number with old | ⟨fresh, rfl, next⟩
    · exact Or.inl ⟨call, here, old⟩
    · exact Or.inr ⟨rfl, next, call, here, fresh⟩

theorem Change.nextId_le (change : Change d d') : d.connection.nextId ≤ d'.connection.nextId := by
  cases change with
  | stayed | begun | fired | told | reached | passed => exact Nat.le_refl _
  | stepped i call c phase here step =>
    rcases step.nextId_cases with same | ⟨-, -, next⟩
    · exact Nat.le_of_eq same.symm
    · exact next ▸ Nat.le_succ _
  | touched c effect => exact Nat.le_of_eq effect.nextId.symm

/-- A request keeps its number, and no other ever had it. -/
theorem numbers_after (moves : List Move) :
    (∀ i k, (machine name).Once moves (Numbered ·.family i k) →
      k < ((machine name).after moves).connection.nextId ∧
      ∃ call, ((machine name).after moves).family i = some call ∧ call.hasBegun = true) ∧
    ∀ i j k, (machine name).Once moves (Numbered ·.family i k) →
      (machine name).Once moves (Numbered ·.family j k) → i = j := by
  refine run_changes (fun moves d =>
    (∀ i k, (machine name).Once moves (Numbered ·.family i k) →
      k < d.connection.nextId ∧ ∃ call, d.family i = some call ∧ call.hasBegun = true) ∧
    ∀ i j k, (machine name).Once moves (Numbered ·.family i k) →
      (machine name).Once moves (Numbered ·.family j k) → i = j) ?_ ?_ moves
  · simp [Machine.once_nil, machine, Numbered, family]
  · rintro moves move d d' before after change ⟨old, distinct⟩
    have correlated := after ▸ @correlated_after name (moves ++ [move])
    -- a number that comes up was there before, or is the next one
    have recent : ∀ i k, (machine name).Once (moves ++ [move]) (Numbered ·.family i k) →
        (machine name).Once moves (Numbered ·.family i k) ∨
        (k = d.connection.nextId ∧ Numbered d'.family i k) := by
      intro i k once
      rw [Machine.once_concat, after] at once
      rcases once with once | now
      · exact Or.inl once
      · rcases change.numbered now with was | ⟨next, -, -⟩
        · exact Or.inl (Machine.Once.now (before ▸ was))
        · exact Or.inr ⟨next, now⟩
    refine ⟨fun i k once => ?_, fun i j k once once' => ?_⟩
    · rcases recent i k once with once | ⟨rfl, now⟩
      · obtain ⟨low, call, here, begun⟩ := old i k once
        refine ⟨Nat.lt_of_lt_of_le low change.nextId_le, ?_⟩
        obtain ⟨call', here', same | step⟩ := change.kept here
        · exact ⟨call', here', by simpa [Call.hasBegun, same] using begun⟩
        · exact ⟨call', here', step.hasBegun rfl⟩
      · refine ⟨correlated.below i _ now, ?_⟩
        obtain ⟨call', here', number⟩ := now
        exact ⟨call', here', Call.hasBegun_of_number? number⟩
    · rcases recent i k once with once | ⟨rfl, now⟩
      · rcases recent j k once' with once' | ⟨rfl, now'⟩
        · exact distinct i j k once once'
        · exact absurd (old i _ once).1 (Nat.lt_irrefl _)
      · rcases recent j _ once' with once' | ⟨-, now'⟩
        · exact absurd (old j _ once').1 (Nat.lt_irrefl _)
        · exact correlated.distinct i j _ now now'

theorem length_calls_step (d : Dialogue) (move : Move) :
    (d.step move).calls.length = d.calls.length + if move.isRequest then 1 else 0 := by
  cases move with
  | call i =>
    cases stepped : (d.calls[i]?).bind (·.step d.now d.connection) <;>
      simp [step, stepped, Move.isRequest]
  | _ => simp [step, touch, Move.isRequest]

theorem length_calls_after (moves : List Move) :
    ((machine name).after moves).calls.length = moves.countP Move.isRequest := by
  refine (machine name).run_induction
    (fun moves d => d.calls.length = moves.countP Move.isRequest) rfl ?_ moves
  intro moves move h
  rw [Machine.after_concat]
  refine (length_calls_step _ move).trans ?_
  rw [h, List.countP_append, List.countP_singleton]

/-- A change lets one number go with one more request that has begun. -/
theorem Change.nextId_le_count (change : Change d d')
    (h : d.connection.nextId ≤ 1 + d.calls.countP Call.hasBegun) :
    d'.connection.nextId ≤ 1 + d'.calls.countP Call.hasBegun := by
  cases change with
  | stayed | told | reached | passed => exact h
  | begun call fresh =>
    simp only [List.countP_append]
    omega
  | fired i call here =>
    obtain ⟨short, rfl⟩ := List.getElem?_eq_some_iff.mp here
    have same : ({ d.calls[i] with cancelled := true } : Call).hasBegun = d.calls[i].hasBegun := rfl
    have counted := List.countP_set (p := Call.hasBegun) (a := { d.calls[i] with cancelled := true })
      short
    -- a request that has not begun does not count
    have inside : (if d.calls[i].hasBegun then 1 else 0) ≤ d.calls.countP Call.hasBegun := by
      split
      · exact List.countP_pos_iff.mpr ⟨_, List.getElem_mem short, by assumption⟩
      · exact Nat.zero_le _
    rw [same] at counted
    simp only [counted]
    omega
  | stepped i call c phase here step =>
    obtain ⟨short, rfl⟩ := List.getElem?_eq_some_iff.mp here
    have began : ({ d.calls[i] with phase } : Call).hasBegun = true := step.hasBegun rfl
    have counted := List.countP_set (p := Call.hasBegun) (a := { d.calls[i] with phase }) short
    have inside : (if d.calls[i].hasBegun then 1 else 0) ≤ d.calls.countP Call.hasBegun := by
      split
      · exact List.countP_pos_iff.mpr ⟨_, List.getElem_mem short, by assumption⟩
      · exact Nat.zero_le _
    simp only [counted, began, if_true]
    -- the counter moves only when a request begins, and then the request begins to count
    rcases step.nextId_cases with same | ⟨fresh, -, next⟩
    · split at inside
      · simp_all
      · simp_all
        omega
    · simp only [Call.hasBegun, fresh] at inside ⊢
      simp
      omega
  | touched c effect =>
    rw [effect.nextId]
    exact h

/-- Not more numbers are used up than requests have begun. -/
theorem nextId_after (moves : List Move) :
    ((machine name).after moves).connection.nextId ≤ 1 + moves.countP Move.isRequest := by
  have counted : ((machine name).after moves).connection.nextId ≤
      1 + ((machine name).after moves).calls.countP Call.hasBegun :=
    run_changes (fun _ d => d.connection.nextId ≤ 1 + d.calls.countP Call.hasBegun)
      (by simp [machine]) (fun _ _ _ _ _ _ change h => change.nextId_le_count h) moves
  have length := @length_calls_after name moves
  have count := List.countP_le_length (p := Call.hasBegun) (l := ((machine name).after moves).calls)
  omega

end Dialogue

end LanguageClient
