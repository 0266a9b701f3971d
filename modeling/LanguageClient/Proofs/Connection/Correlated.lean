import LanguageClient.Proofs.Connection.Effect
import Mathlib.Data.List.Nodup
import Mathlib.Logic.Function.Basic
/-!
# Calls and the tables of a connection

A call has a number from the moment it is admitted to its end.  `Correlated` says how the numbers of
all calls lie in the tables of the connection: no two calls have the same number, a call that has
registered is in exactly one of the tables, and the tables hold nothing but such calls.  So a response
is assigned to one call at most, and nobody else takes it.

`Sourced` follows where the responses came from: whatever was known of a response and a call when it
was assigned is known when the call fetches it.

The calls are a family over any type of indices, so that the same facts hold of the calls in a list
and of the calls that the tasks of a session make.
-/

namespace LanguageClient

namespace Call

/-- The number of a call, while it is in use. -/
def number? (call : Call) : Option Nat :=
  match call.phase with
  | .admitted id | .registered id | .waiting id _ | .withdrawing id _ | .abandoning id _
  | .notifying id _ => some id
  | .entering | .ended _ => none

/-- The number of a call, while it is in one of the tables. -/
def tabled? (call : Call) : Option Nat :=
  match call.phase with
  | .registered id | .waiting id _ | .withdrawing id _ | .abandoning id _ => some id
  | _ => none

theorem number?_of_tabled? {call : Call} {k : Nat} (h : call.tabled? = some k) :
    call.number? = some k := by
  unfold tabled? at h
  unfold number?
  split at h <;> simp_all

namespace Step

variable {now : Nat} {c c' : Connection} {call : Call} {phase : CallPhase}

/-- A call never assigns a response. -/
theorem get?_replies (step : Step now c call c' phase) {k : Nat} {r : Response}
    (reply : c'.replies.get? k = some r) : c.replies.get? k = some r := by
  cases step with
  | refused | numbered | turnedAway | registered | unwritten | gaveUp | forgotten => exact reply
  | written id _ place wrote =>
    obtain ⟨-, rfl⟩ := Connection.canWrite_of_write wrote
    exact reply
  | answered | withdrawn | late =>
    simp only [Table.get?_erase, Option.ite_none_left_eq_some] at reply
    exact reply.2
  | notified id =>
    rcases c.tryWrite_cases (cancelMessage id) with ⟨-, wrote⟩ | ⟨-, failed⟩
    · rwa [wrote] at reply
    · rwa [failed] at reply

/-- A call takes no response but its own. -/
theorem get?_replies_of_ne (step : Step now c call c' phase) {k : Nat}
    (other : call.tabled? ≠ some k) : c'.replies.get? k = c.replies.get? k := by
  cases step with
  | refused | numbered | turnedAway | registered | unwritten | gaveUp | forgotten => rfl
  | written id _ place wrote =>
    obtain ⟨-, rfl⟩ := Connection.canWrite_of_write wrote
    rfl
  | answered id _ _ place | withdrawn id _ place | late id _ place =>
    have apart : id ≠ k := by
      rintro rfl
      exact other (by simp [tabled?, place])
    simp [apart]
  | notified id => rw [Connection.tryWrite_eq]

/-- A call that is in a table has had its number before. -/
theorem number? (step : Step now c call c' phase) {k : Nat}
    (tabled : { call with phase }.tabled? = some k) : call.number? = some k := by
  cases step <;> simp_all [tabled?, Call.number?]

end Step

end Call

/-- Nobody but a call changes the response of a request that does not wait any more. -/
theorem Connection.Effect.get?_replies {c c' : Connection} (effect : c.Effect c') {k : Nat}
    (gone : k ∉ c.pending) : c'.replies.get? k = c.replies.get? k := by
  cases effect with
  | steady same => rw [same.replies]
  | settled id r place same =>
    rw [same.replies]
    rcases c.settle_cases id r with ⟨l, -, waits, settled⟩ | ⟨-, settled⟩
    · have apart : l ≠ k := by
        rintro rfl
        exact gone waits
      simp [settled, apart]
    · rw [settled]
  | drained same => rw [same.replies, Connection.get?_replies_drain, if_neg gone]

variable {ι : Type} {c c' : Connection} {calls : ι → Option Call}

def Numbered (calls : ι → Option Call) (i : ι) (k : Nat) : Prop :=
  ∃ call, calls i = some call ∧ call.number? = some k

/-- A call of a family has a number that is in one of the tables. -/
def Tabled (calls : ι → Option Call) (i : ι) (k : Nat) : Prop :=
  ∃ call, calls i = some call ∧ call.tabled? = some k

theorem Tabled.numbered {i : ι} {k : Nat} (h : Tabled calls i k) : Numbered calls i k := by
  obtain ⟨call, here, tabled⟩ := h
  exact ⟨call, here, Call.number?_of_tabled? tabled⟩

theorem Numbered.eq {i : ι} {k l : Nat} (h : Numbered calls i k) (h' : Numbered calls i l) :
    k = l := by
  obtain ⟨call, here, number⟩ := h
  obtain ⟨call', here', number'⟩ := h'
  rw [here, Option.some.injEq] at here'
  rw [here', number', Option.some.injEq] at number
  exact number.symm

section Update

variable [DecidableEq ι] {i j : ι} {k : Nat} {call : Call}

theorem numbered_update :
    Numbered (Function.update calls i (some call)) j k ↔
      if j = i then call.number? = some k else Numbered calls j k := by
  by_cases same : j = i
  · subst same; simp [Numbered]
  · simp [Numbered, same]

theorem tabled_update :
    Tabled (Function.update calls i (some call)) j k ↔
      if j = i then call.tabled? = some k else Tabled calls j k := by
  by_cases same : j = i
  · subst same; simp [Tabled]
  · simp [Tabled, same]

end Update

/-- How the numbers of calls lie in the tables of a connection. -/
structure Correlated (c : Connection) (calls : ι → Option Call) : Prop where
  below : ∀ i k, Numbered calls i k → k < c.nextId
  distinct : ∀ i j k, Numbered calls i k → Numbered calls j k → i = j
  tabled : ∀ i k, Tabled calls i k → (k ∈ c.pending ↔ c.replies.get? k = none)
  untabled : ∀ i k, Numbered calls i k → ¬ Tabled calls i k →
    k ∉ c.pending ∧ c.replies.get? k = none
  owned : ∀ k, k ∈ c.pending ∨ c.replies.get? k ≠ none → ∃ i, Tabled calls i k
  nodup : c.pending.Nodup

namespace Correlated

/-- Nothing that lies at or above the next number is in the tables. -/
theorem fresh (h : Correlated c calls) {k : Nat} (high : c.nextId ≤ k) :
    k ∉ c.pending ∧ c.replies.get? k = none := by
  by_contra used
  obtain ⟨i, tabled⟩ := h.owned k (by tauto)
  exact absurd (h.below i k tabled.numbered) (by omega)

theorem congr (h : Correlated c calls) (nextId : c'.nextId = c.nextId)
    (pending : c'.pending = c.pending) (replies : c'.replies = c.replies) : Correlated c' calls where
  below := by simpa [nextId] using h.below
  distinct := h.distinct
  tabled := by simpa [pending, replies] using h.tabled
  untabled := by simpa [pending, replies] using h.untabled
  owned := by simpa [pending, replies] using h.owned
  nodup := by simpa [pending] using h.nodup

theorem steady (h : Correlated c calls) (same : c.Steady c') : Correlated c' calls :=
  h.congr same.nextId same.pending same.replies

theorem of_iff (h : Correlated c calls) {calls' : ι → Option Call}
    (numbered : ∀ i k, Numbered calls' i k ↔ Numbered calls i k)
    (tabled : ∀ i k, Tabled calls' i k ↔ Tabled calls i k) : Correlated c calls' where
  below := by simpa [numbered] using h.below
  distinct := by simpa [numbered] using h.distinct
  tabled := by simpa [tabled] using h.tabled
  untabled := by simpa [numbered, tabled] using h.untabled
  owned := by simpa [tabled] using h.owned
  nodup := h.nodup

/-- A response is assigned to the call that waits under its number. -/
theorem settle (h : Correlated c calls) {k : Nat} (waits : k ∈ c.pending) (r : Response) :
    Correlated { c with pending := c.pending.erase k, replies := c.replies.put k r } calls where
  below := h.below
  distinct := h.distinct
  tabled := by
    intro i l tabled
    have before := h.tabled i l tabled
    by_cases same : k = l
    · subst same; simp [h.nodup.mem_erase_iff]
    · simpa [h.nodup.mem_erase_iff, same, Ne.symm same] using before
  untabled := by
    intro i l numbered apart
    have before := h.untabled i l numbered apart
    have other : k ≠ l := fun same => before.1 (same ▸ waits)
    simpa [h.nodup.mem_erase_iff, other, Ne.symm other] using before
  owned := by
    intro l used
    by_cases same : k = l
    · subst same
      exact h.owned k (Or.inl waits)
    · exact h.owned l (by simpa [h.nodup.mem_erase_iff, same, Ne.symm same] using used)
  nodup := h.nodup.erase k

/-- Every call that waits is told that the connection has ended. -/
theorem drain (h : Correlated c calls) : Correlated c.drain calls where
  below := h.below
  distinct := h.distinct
  tabled := by
    intro i k tabled
    have before := h.tabled i k tabled
    by_cases waits : k ∈ c.pending
    · simp [waits]
    · simpa [waits] using before
  untabled := by
    intro i k numbered apart
    have before := h.untabled i k numbered apart
    simpa [before.1] using before.2
  owned := by
    intro k used
    by_cases waits : k ∈ c.pending
    · exact h.owned k (Or.inl waits)
    · exact h.owned k (by simpa [waits] using used)
  nodup := by simp

/-- Whatever happens to the connection, other than by a call, the calls lie in its tables. -/
theorem effect (h : Correlated c calls) (effect : c.Effect c') : Correlated c' calls := by
  cases effect with
  | steady same => exact h.steady same
  | settled id r place same =>
    refine Correlated.steady ?_ same
    rcases c.settle_cases id r with ⟨k, -, waits, settled⟩ | ⟨-, settled⟩
    · rw [settled]
      exact h.settle waits r
    · rwa [settled]
  | drained same => exact h.drain.steady same

/-! ## Steps of a call -/

section Step

variable [DecidableEq ι] {i : ι} {call : Call}

/-- A call moves on and keeps its number, in or out of the tables. -/
theorem move (h : Correlated c calls) (here : calls i = some call) {call' : Call}
    (number : call'.number? = call.number?) (tabled : call'.tabled? = call.tabled?) :
    Correlated c (Function.update calls i (some call')) := by
  have numbers : ∀ j k, Numbered (Function.update calls i (some call')) j k ↔ Numbered calls j k := by
    intro j k
    rw [numbered_update]
    split
    · rename_i same
      subst same
      simp [Numbered, here, number]
    · rfl
  have tables : ∀ j k, Tabled (Function.update calls i (some call')) j k ↔ Tabled calls j k := by
    intro j k
    rw [tabled_update]
    split
    · rename_i same
      subst same
      simp [Tabled, here, tabled]
    · rfl
  constructor
  · simpa [numbers] using h.below
  · simpa [numbers] using h.distinct
  · simpa [tables] using h.tabled
  · simpa [numbers, tables] using h.untabled
  · simpa [tables] using h.owned
  · exact h.nodup

/-- A call that is in no table begins or ends. -/
theorem drop (h : Correlated c calls) (apart : ∀ k, ¬ Tabled calls i k) {call' : Call}
    (number : call'.number? = none) : Correlated c (Function.update calls i (some call')) := by
  have tabled : call'.tabled? = none := by
    cases t : call'.tabled? with
    | none => rfl
    | some k => simp [Call.number?_of_tabled? t] at number
  constructor
  -- clause by clause: whoever is numbered or in the table is another call, as before
  · intro j k numbered
    rw [numbered_update] at numbered
    split at numbered
    · simp [number] at numbered
    · exact h.below j k numbered
  · intro j l k numbered numbered'
    rw [numbered_update] at numbered numbered'
    split at numbered
    · simp [number] at numbered
    · split at numbered'
      · simp [number] at numbered'
      · exact h.distinct j l k numbered numbered'
  · intro j k inTable
    rw [tabled_update] at inTable
    split at inTable
    · simp [tabled] at inTable
    · exact h.tabled j k inTable
  · intro j k numbered outside
    rw [numbered_update] at numbered
    rw [tabled_update] at outside
    split at numbered
    · simp [number] at numbered
    · rename_i other
      exact h.untabled j k numbered (by simpa [other] using outside)
  · intro k used
    obtain ⟨j, inTable⟩ := h.owned k used
    refine ⟨j, tabled_update.mpr ?_⟩
    split
    · rename_i same
      exact absurd inTable (same ▸ apart k)
    · exact inTable
  · exact h.nodup

/-- A call gets its number. -/
theorem number (h : Correlated c calls) (here : calls i = some call) (unnumbered : call.number? = none)
    {call' : Call} (number : call'.number? = some c.nextId) (tabled : call'.tabled? = none) :
    Correlated { c with nextId := c.nextId + 1 } (Function.update calls i (some call')) := by
  have apart : ∀ k, ¬ Tabled calls i k := by
    rintro k ⟨call₁, here₁, tabled₁⟩
    obtain rfl : call = call₁ := by simpa [here] using here₁
    simp [Call.number?_of_tabled? tabled₁] at unnumbered
  constructor
  · intro j k numbered
    rw [numbered_update] at numbered
    split at numbered
    · simp only [number, Option.some.injEq] at numbered
      simp [← numbered]
    · exact Nat.lt_succ_of_lt (h.below j k numbered)
  · intro j l k numbered numbered'
    rw [numbered_update] at numbered numbered'
    -- no other call has a number as high as the new one
    split at numbered <;> split at numbered'
    · simp_all
    · have := h.below l k numbered'
      simp only [number, Option.some.injEq] at numbered
      omega
    · have := h.below j k numbered
      simp only [number, Option.some.injEq] at numbered'
      omega
    · exact h.distinct j l k numbered numbered'
  · intro j k inTable
    rw [tabled_update] at inTable
    split at inTable
    · simp [tabled] at inTable
    · exact h.tabled j k inTable
  · intro j k numbered outside
    rw [numbered_update] at numbered
    rw [tabled_update] at outside
    split at numbered
    · simp only [number, Option.some.injEq] at numbered
      exact h.fresh (by omega)
    · rename_i other
      exact h.untabled j k numbered (by simpa [other] using outside)
  · intro k used
    obtain ⟨j, inTable⟩ := h.owned k used
    refine ⟨j, tabled_update.mpr ?_⟩
    split
    · rename_i same
      exact absurd inTable (same ▸ apart k)
    · exact inTable
  · exact h.nodup

/-- A call enters the table of those that wait. -/
theorem table (h : Correlated c calls) (here : calls i = some call) {k : Nat}
    (number : call.number? = some k) (outside : call.tabled? = none) {call' : Call}
    (tabled : call'.tabled? = some k) :
    Correlated { c with pending := c.pending ++ [k] } (Function.update calls i (some call')) := by
  have number' := Call.number?_of_tabled? tabled
  have untabled := h.untabled i k ⟨call, here, number⟩ (by simp [Tabled, here, outside])
  -- numbers are distinct, so no other call is touched by the new entry
  have other : ∀ j l, j ≠ i → Numbered calls j l → l ≠ k := by
    rintro j l apart numbered rfl
    exact apart (h.distinct j i l numbered ⟨call, here, number⟩)
  constructor
  · intro j l numbered
    rw [numbered_update] at numbered
    split at numbered
    · obtain rfl : k = l := by simpa [number'] using numbered
      exact h.below i k ⟨call, here, number⟩
    · exact h.below j l numbered
  · intro j l m numbered numbered'
    rw [numbered_update, number', ← number] at numbered numbered'
    exact h.distinct j l m (by split at numbered <;> simp_all [Numbered])
      (by split at numbered' <;> simp_all [Numbered])
  · intro j l inTable
    rw [tabled_update] at inTable
    split at inTable
    · obtain rfl : k = l := by simpa [tabled] using inTable
      simp [untabled.2]
    · rename_i apart
      simpa [other j l apart inTable.numbered] using h.tabled j l inTable
  · intro j l numbered notIn
    rw [numbered_update] at numbered
    rw [tabled_update] at notIn
    split at numbered
    · simp_all
    · rename_i apart
      simpa [other j l apart numbered] using h.untabled j l numbered (by simpa [apart] using notIn)
  · intro l used
    by_cases same : l = k
    · exact ⟨i, tabled_update.mpr (by simp [tabled, same])⟩
    · obtain ⟨j, inTable⟩ := h.owned l (by simpa [same] using used)
      refine ⟨j, tabled_update.mpr ?_⟩
      split
      · rename_i here'
        subst here'
        exact absurd (inTable.numbered.eq ⟨call, here, number⟩) same
      · exact inTable
  · simpa using h.nodup.concat untabled.1

/-- A call leaves the tables. -/
theorem untable (h : Correlated c calls) (here : calls i = some call) {k : Nat}
    (tabled : call.tabled? = some k) {call' : Call} (outside : call'.tabled? = none)
    (number : call'.number? = none ∨ call'.number? = some k) (nextId : c'.nextId = c.nextId)
    (pending : c'.pending = c.pending.erase k)
    (replies : ∀ l, c'.replies.get? l = if k = l then none else c.replies.get? l) :
    Correlated c' (Function.update calls i (some call')) := by
  have mine : Tabled calls i k := ⟨call, here, tabled⟩
  -- the call may lose its number, but no call gets one
  have kept : ∀ j l, Numbered (Function.update calls i (some call')) j l → Numbered calls j l := by
    intro j l numbered
    rw [numbered_update] at numbered
    split at numbered
    · rename_i same
      subst same
      rcases number with none | some
      · simp [none] at numbered
      · obtain rfl : k = l := by simpa [some] using numbered
        exact mine.numbered
    · exact numbered
  have other : ∀ j l, j ≠ i → Numbered calls j l → k ≠ l := by
    rintro j l apart numbered rfl
    exact apart (h.distinct j i k numbered mine.numbered)
  constructor
  · intro j l numbered
    rw [nextId]
    exact h.below j l (kept j l numbered)
  · exact fun j l m numbered numbered' => h.distinct j l m (kept j m numbered) (kept l m numbered')
  · intro j l inTable
    rw [tabled_update] at inTable
    split at inTable
    · simp [outside] at inTable
    · rename_i apart
      have different := other j l apart inTable.numbered
      simpa [pending, replies, h.nodup.mem_erase_iff, different, Ne.symm different]
        using h.tabled j l inTable
  · intro j l numbered notIn
    by_cases same : k = l
    · subst same
      simp [pending, replies, h.nodup.mem_erase_iff]
    · have apart : j ≠ i := by
        rintro rfl
        exact same (mine.numbered.eq (kept j l numbered))
      have before := h.untabled j l (kept j l numbered)
        (by simpa [tabled_update, apart] using notIn)
      simpa [pending, replies, h.nodup.mem_erase_iff, same, Ne.symm same] using before
  · intro l used
    have different : k ≠ l := by
      rintro rfl
      simp [pending, replies, h.nodup.mem_erase_iff] at used
    obtain ⟨j, inTable⟩ := h.owned l
      (by simpa [pending, replies, h.nodup.mem_erase_iff, different, Ne.symm different] using used)
    refine ⟨j, tabled_update.mpr ?_⟩
    split
    · rename_i same
      subst same
      exact absurd (mine.numbered.eq inTable.numbered) different
    · exact inTable
  · rw [pending]
    exact h.nodup.erase k

/-- **Calls keep to their numbers.**  A step of a call leaves the numbers of all calls where they
    belong. -/
theorem step (h : Correlated c calls) (here : calls i = some call) {now : Nat} {phase : CallPhase}
    (step : Call.Step now c call c' phase) :
    Correlated c' (Function.update calls i (some { call with phase })) := by
  have outside : call.tabled? = none → ∀ k, ¬ Tabled calls i k := by
    rintro none k ⟨call₁, here₁, tabled₁⟩
    obtain rfl : call = call₁ := by simpa [here] using here₁
    simp [none] at tabled₁
  cases step with
  | refused e fresh why => exact h.drop (outside (by simp [Call.tabled?, fresh])) rfl
  | numbered fresh => exact h.number here (by simp [Call.number?, fresh]) rfl rfl
  | turnedAway id place => exact h.drop (outside (by simp [Call.tabled?, place])) rfl
  | registered id place =>
    exact h.table here (by simp [Call.number?, place]) (by simp [Call.tabled?, place]) rfl
  | written id _ place wrote =>
    obtain ⟨-, rfl⟩ := Connection.canWrite_of_write wrote
    refine (h.move here ?_ ?_).congr rfl rfl rfl
    · simp [Call.number?, place]
    · simp [Call.tabled?, place]
  | unwritten id e place failed =>
    exact h.move here (by simp [Call.number?, place]) (by simp [Call.tabled?, place])
  | answered id deadline response place reply =>
    have mine : call.tabled? = some id := by simp [Call.tabled?, place]
    -- a call that has its reply left the table when the reply was assigned
    have gone : id ∉ c.pending := by
      rw [h.tabled i id ⟨call, here, mine⟩, reply]
      simp
    exact h.untable here mine rfl (Or.inl rfl) rfl (List.erase_of_not_mem gone).symm (by simp)
  | gaveUp id deadline e place noReply why =>
    exact h.move here (by simp [Call.number?, place]) (by simp [Call.tabled?, place])
  | withdrawn id e place =>
    exact h.untable here (by simp [Call.tabled?, place]) rfl (Or.inl rfl) rfl rfl (by simp)
  | forgotten id e place waits =>
    have mine : call.tabled? = some id := by simp [Call.tabled?, place]
    -- it is still in the table, so that nobody has assigned it a reply
    have noReply := (h.tabled i id ⟨call, here, mine⟩).mp waits
    refine h.untable here mine rfl (Or.inr rfl) rfl rfl fun l => ?_
    by_cases same : id = l
    · simp [← same, noReply]
    · simp [same]
  | late id e place gone =>
    exact h.untable here (by simp [Call.tabled?, place]) rfl (Or.inl rfl) rfl
      (List.erase_of_not_mem gone).symm (by simp)
  | notified id e place =>
    have ended : Correlated c
        (Function.update calls i (some { call with phase := .ended (.error e) })) :=
      h.drop (outside (by simp [Call.tabled?, place])) rfl
    rcases c.tryWrite_cases (Call.cancelMessage id) with ⟨-, wrote⟩ | ⟨-, failed⟩
    · rw [wrote]
      exact ended.congr rfl rfl rfl
    · rwa [failed]

/-- A call that has not begun lies in no table. -/
theorem begin (h : Correlated c calls) (new : calls i = none) {call : Call}
    (fresh : call.number? = none) : Correlated c (Function.update calls i (some call)) :=
  h.drop (by simp [Tabled, new]) fresh

end Step

end Correlated

/-! ## Where responses come from -/

/-- Every response that waits to be fetched is one of those that `p` knows of for its call. -/
def Sourced (c : Connection) (calls : ι → Option Call) (p : ι → Nat → Response → Prop) : Prop :=
  ∀ i k r, Tabled calls i k → c.replies.get? k = some r → p i k r

namespace Sourced

variable {p q : ι → Nat → Response → Prop}

theorem mono (h : Sourced c calls p) (more : ∀ i k r, p i k r → q i k r) : Sourced c calls q :=
  fun i k r tabled reply => more i k r (h i k r tabled reply)

/-- A response comes into the table when it is assigned, or at the end of the connection. -/
theorem effect (h : Sourced c calls p) (effect : c.Effect c')
    (assigned : ∀ id i k r, c.readPhase = .settling id r → id.asNumber = some k → k ∈ c.pending →
      Tabled calls i k → p i k r)
    (told : ∀ i k, Tabled calls i k → k ∈ c.pending → p i k (c.terminationResponse k)) :
    Sourced c' calls p := by
  cases effect with
  | steady same =>
    intro i k r tabled reply
    exact h i k r tabled (by rwa [same.replies] at reply)
  | settled id r place same =>
    intro i l r' tabled reply
    rw [same.replies] at reply
    -- either one number gets the response, or nobody waits for it
    rcases c.settle_cases id r with ⟨k, number, waits, settled⟩ | ⟨-, settled⟩
    · rw [settled] at reply
      by_cases here : k = l
      · subst here
        obtain rfl : r = r' := by simpa using reply
        exact assigned id i k r place number waits tabled
      · exact h i l r' tabled (by simpa [here] using reply)
    · rw [settled] at reply
      exact h i l r' tabled reply
  | drained same =>
    intro i k r tabled reply
    rw [same.replies, Connection.get?_replies_drain] at reply
    split at reply
    · rename_i waits
      obtain rfl : c.terminationResponse k = r := by simpa using reply
      exact told i k tabled waits
    · exact h i k r tabled reply

/-- A step of a call brings no response into the table. -/
theorem step [DecidableEq ι] (h : Sourced c calls p) (correlated : Correlated c calls) {i : ι}
    {call : Call} (here : calls i = some call) {now : Nat} {phase : CallPhase}
    (step : Call.Step now c call c' phase) :
    Sourced c' (Function.update calls i (some { call with phase })) p := by
  intro j k r tabled reply
  have old := step.get?_replies reply
  rw [tabled_update] at tabled
  split at tabled
  · rename_i same
    subst same
    by_cases before : Tabled calls j k
    · exact h j k r before old
    · -- a call that has just registered has no response yet
      have numbered : Numbered calls j k := ⟨call, here, step.number? tabled⟩
      rw [(correlated.untabled j k numbered before).2] at old
      contradiction
  · exact h j k r tabled old

end Sourced

end LanguageClient
