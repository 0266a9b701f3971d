import LanguageClient.Proofs.Sync.History
/-!
# Staged changes and their generations

Whoever waits for the delay of a staged change holds its generation.  `Tokens` says how the staged
changes that were handed out in a history lie in the bookkeeping: their generations grow, so none is
given twice; each has either lapsed or is the staged change of its document, and never both; and
what was taken out at the end of a delay has lapsed, so that it is not taken out again.

The invariant holds of every sequence of operations, whatever kinds are agreed on in between.
-/

namespace LanguageClient

/-- The staged changes that were handed out, each with its document. -/
def stagings (h : List SyncEvent) : List (String × StagedChange) :=
  h.filterMap (·.staging?)

/-- The generations that were taken out at the end of their delay. -/
def takenGenerations (h : List SyncEvent) : List Nat :=
  h.filterMap (·.taken?)

/-- How the staged changes handed out, and the generations taken out, lie in the bookkeeping. -/
structure Tokens (handed : List (String × StagedChange)) (taken : List Nat)
    (staged : Table String StagedChange) (lapsed : List Nat) (last : Nat) : Prop where
  increasing : handed.Pairwise fun x y => x.2.generation < y.2.generation
  handed_le : ∀ x ∈ handed, x.2.generation ≤ last
  lapsed_le : ∀ generation ∈ lapsed, generation ≤ last
  staged_le : ∀ change ∈ staged.values, change.generation ≤ last
  staged_handed : ∀ uri change, staged.get? uri = some change → (uri, change) ∈ handed
  lapsed_iff : ∀ x ∈ handed, x.2.generation ∈ lapsed ↔ staged.get? x.1 ≠ some x.2
  taken_lapsed : ∀ generation ∈ taken, generation ∈ lapsed
  taken_nodup : taken.Nodup

namespace Tokens

variable {handed : List (String × StagedChange)} {taken lapsed : List Nat}
  {staged : Table String StagedChange} {last : Nat}

theorem nil : Tokens [] [] [] [] 0 := by
  constructor <;> simp [Table.values]

/-- A generation belongs to one change of one document. -/
theorem eq_of_generation_eq (t : Tokens handed taken staged lapsed last)
    {x y : String × StagedChange} (hx : x ∈ handed) (hy : y ∈ handed)
    (same : x.2.generation = y.2.generation) : x = y := by
  obtain ⟨i, hi, rfl⟩ := List.mem_iff_getElem.mp hx
  obtain ⟨j, hj, rfl⟩ := List.mem_iff_getElem.mp hy
  have ordered := List.pairwise_iff_getElem.mp t.increasing
  rcases Nat.lt_trichotomy i j with h | h | h
  · have := ordered i j hi hj h
    omega
  · subst h; rfl
  · have := ordered j i hj hi h
    omega

/-- A change that is taken off its place lapses. -/
theorem erase (t : Tokens handed taken staged lapsed last) {uri : String} {change : StagedChange}
    (present : staged.get? uri = some change) :
    Tokens handed taken (staged.erase uri) (lapsed ++ [change.generation]) last where
  increasing := t.increasing
  handed_le := t.handed_le
  lapsed_le := by
    intro generation h
    rcases List.mem_append.mp h with h | h
    · exact t.lapsed_le generation h
    -- the token that lapses now is that of the change
    · rw [List.mem_singleton.mp h]
      exact t.staged_le change (Table.mem_values_of_get? present)
  staged_le := fun c h => t.staged_le c (Table.mem_values_erase h)
  staged_handed := by
    intro other c h
    by_cases same : uri = other
    · simp [same] at h
    · exact t.staged_handed other c (by simpa [same] using h)
  lapsed_iff := by
    intro x hx
    have before := t.lapsed_iff x hx
    by_cases same : x.2.generation = change.generation
    · -- the generation tells the change and its document
      obtain rfl := t.eq_of_generation_eq hx (t.staged_handed uri change present) same
      simp
    · have different : x.2 ≠ change := fun h => same (by rw [h])
      by_cases here : uri = x.1
      · rw [← here, present] at before
        simp only [ne_eq, Option.some.injEq, Ne.symm different, not_false_eq_true, iff_true] at before
        simp [here, before]
      · simpa [here, same] using before
  taken_lapsed := fun generation h => List.mem_append_left _ (t.taken_lapsed generation h)
  taken_nodup := t.taken_nodup

/-- A change that is taken out at the end of its delay was not taken out before. -/
theorem erase_taken (t : Tokens handed taken staged lapsed last) {uri : String}
    {change : StagedChange} (present : staged.get? uri = some change) :
    Tokens handed (taken ++ [change.generation]) (staged.erase uri)
      (lapsed ++ [change.generation]) last := by
  have waiting : change.generation ∉ lapsed := fun gone =>
    (t.lapsed_iff _ (t.staged_handed uri change present)).mp gone present
  refine { t.erase present with taken_lapsed := ?_, taken_nodup := ?_ }
  · intro generation h
    rcases List.mem_append.mp h with h | h
    · exact List.mem_append_left _ (t.taken_lapsed generation h)
    · exact List.mem_append_right _ h
  · rw [List.nodup_append]
    refine ⟨t.taken_nodup, by simp, ?_⟩
    intro generation before other now same
    rw [List.mem_singleton.mp now] at same
    exact waiting (same ▸ t.taken_lapsed generation before)

/-- A change under a new generation takes the free place of its document. -/
theorem put (t : Tokens handed taken staged lapsed last) {uri : String} (change : StagedChange)
    (free : staged.get? uri = none) (new : change.generation = last + 1) :
    Tokens (handed ++ [(uri, change)]) taken (staged.put uri change) lapsed (last + 1) where
  increasing := by
    -- generations are handed out in order, so the new one comes after all
    rw [List.pairwise_append]
    refine ⟨t.increasing, List.pairwise_singleton _ _, ?_⟩
    intro x hx y hy
    have := t.handed_le x hx
    simp only [List.mem_singleton.mp hy, new]
    omega
  handed_le := by
    intro x hx
    rcases List.mem_append.mp hx with hx | hx
    · exact Nat.le_succ_of_le (t.handed_le x hx)
    · simp [List.mem_singleton.mp hx, new]
  lapsed_le := fun generation h => Nat.le_succ_of_le (t.lapsed_le generation h)
  staged_le := by
    intro c h
    rcases Table.mem_values_put h with rfl | h
    · exact Nat.le_of_eq new
    · exact Nat.le_succ_of_le (t.staged_le c h)
  staged_handed := by
    intro other c h
    by_cases same : uri = other
    · simp only [Table.get?_put, if_pos same, Option.some.injEq] at h
      simp [same, h]
    · simp only [Table.get?_put, if_neg same] at h
      exact List.mem_append_left _ (t.staged_handed other c h)
  lapsed_iff := by
    intro x hx
    rcases List.mem_append.mp hx with hx | hx
    · have before := t.lapsed_iff x hx
      by_cases same : uri = x.1
      · have older : change ≠ x.2 := by
          have := t.handed_le x hx
          rintro rfl
          omega
        rw [← same, free] at before
        simp [same, older, before]
      · simpa [same] using before
    -- a generation that was never handed out cannot have lapsed
    · have early : last + 1 ∉ lapsed := by
        intro h
        have := t.lapsed_le _ h
        omega
      simp [List.mem_singleton.mp hx, new, early]
  taken_lapsed := t.taken_lapsed
  taken_nodup := t.taken_nodup

/-- When everything is dropped, every staged change lapses. -/
theorem drop (t : Tokens handed taken staged lapsed last) :
    Tokens handed taken [] (lapsed ++ staged.values.map (·.generation)) last where
  increasing := t.increasing
  handed_le := t.handed_le
  lapsed_le := by
    intro generation h
    rcases List.mem_append.mp h with h | h
    · exact t.lapsed_le generation h
    · obtain ⟨change, present, rfl⟩ := List.mem_map.mp h
      exact t.staged_le change present
  staged_le := by simp [Table.values]
  staged_handed := by simp
  lapsed_iff := by
    intro x hx
    simp only [Table.get?_nil, ne_eq, reduceCtorEq, not_false_eq_true, iff_true]
    by_cases gone : x.2.generation ∈ lapsed
    · exact List.mem_append_left _ gone
    · have present : staged.get? x.1 = some x.2 := by
        simpa using (t.lapsed_iff x hx).not.mp gone
      exact List.mem_append_right _
        (List.mem_map_of_mem (Table.mem_values_of_get? present))
  taken_lapsed := fun generation h => List.mem_append_left _ (t.taken_lapsed generation h)
  taken_nodup := t.taken_nodup

end Tokens

namespace DocumentSync

/-- The staged changes of a history in the bookkeeping it led to. -/
def TokensAfter (h : List SyncEvent) (s : DocumentSync) : Prop :=
  Tokens (stagings h) (takenGenerations h) s.staged s.lapsed s.lastGeneration

theorem tokens_unstage {s : DocumentSync} {handed : List (String × StagedChange)}
    {taken : List Nat} (t : Tokens handed taken s.staged s.lapsed s.lastGeneration)
    (uri : String) :
    Tokens handed taken (s.unstage uri).staged (s.unstage uri).lapsed s.lastGeneration := by
  cases present : s.staged.get? uri with
  | none => rwa [unstage_of_get?_eq_none present]
  | some change => simpa [unstage, present] using t.erase present

/-- An event that neither hands a staged change out nor takes one out. -/
theorem TokensAfter.concat {h : List SyncEvent} {s' : DocumentSync} {e : SyncEvent}
    (quiet : e.staging? = none ∧ e.taken? = none)
    (t : Tokens (stagings h) (takenGenerations h) s'.staged s'.lapsed s'.lastGeneration) :
    TokensAfter (h ++ [e]) s' := by
  simpa [TokensAfter, stagings, takenGenerations, quiet] using t

theorem Transition.tokensAfter {s s' : DocumentSync} {h : List SyncEvent} {e : SyncEvent}
    (step : Transition s e s') (t : TokensAfter h s) : TokensAfter (h ++ [e]) s' := by
  cases step with
  | configured | openPassed | opened | changePassed | refused | sent | releasePassed | saved
  | closePassed =>
    exact TokensAfter.concat ⟨rfl, rfl⟩ t
  | staged c =>
    have free : (s.unstage c.uri).staged.get? c.uri = none := by simp
    simpa [TokensAfter, stagings, takenGenerations, SyncEvent.staging?, SyncEvent.taken?] using
      (tokens_unstage t c.uri).put ⟨c.version, c.text, s.lastGeneration + 1⟩ free rfl
  | released op uri change lastSent asked present =>
    rcases asked with rfl | rfl
    · exact TokensAfter.concat ⟨rfl, rfl⟩ (by simpa using tokens_unstage t uri)
    · simpa [TokensAfter, stagings, takenGenerations, SyncEvent.staging?, SyncEvent.taken?,
        unstage, present] using t.erase_taken present
  | closed uri => exact TokensAfter.concat ⟨rfl, rfl⟩ (by simpa using tokens_unstage t uri)
  | reset => exact TokensAfter.concat ⟨rfl, rfl⟩ t.drop

theorem tokensAfter_run (selector : DocumentSelector) (ops : List SyncOp) :
    TokensAfter ((new selector).history ops) ((new selector).run ops) :=
  run_induction (covered_new selector) ops Tokens.nil
    fun _ _ _ _ _ _ step before => step.tokensAfter before

/-- A change that waits has waited before, or it was handed out just now. -/
theorem Transition.staged_cases {s s' : DocumentSync} {e : SyncEvent} (step : Transition s e s')
    {uri : String} {change : StagedChange} (there : s'.staged.get? uri = some change) :
    s.staged.get? uri = some change ∨ ∃ c : DocumentChange, c.uri = uri ∧
      change = ⟨c.version, c.text, s.lastGeneration + 1⟩ ∧
      e = ⟨.change c, .changed (.staged change.generation)⟩ := by
  cases step with
  | staged c lastSent full announced newer =>
    by_cases same : c.uri = uri
    · obtain rfl : ⟨c.version, c.text, s.lastGeneration + 1⟩ = change := by simpa [same] using there
      exact Or.inr ⟨c, same, rfl, rfl⟩
    · exact Or.inl (by simpa [same] using there)
  | released _ uri' _ _ _ _ _ | closed uri' _ _ =>
    by_cases same : uri' = uri
    · simp [same] at there
    · exact Or.inl (by simpa [same] using there)
  | reset => simp [DocumentSync.reset] at there
  | _ => exact Or.inl there

theorem TokensAfter.not_lapsed {h : List SyncEvent} {s : DocumentSync} (t : TokensAfter h s)
    {uri : String} {change : StagedChange} (there : s.staged.get? uri = some change) :
    change.generation ∉ s.lapsed := fun gone =>
  (t.lapsed_iff _ (t.staged_handed uri change there)).mp gone there

/-- An operation raises the counter by one at most. -/
theorem Transition.lastGeneration_le {s s' : DocumentSync} {e : SyncEvent}
    (step : Transition s e s') : s'.lastGeneration ≤ s.lastGeneration + 1 := by
  cases step <;> simp [DocumentSync.reset]

/-- The counter of generations never gets ahead of the number of operations, so that sixty-four bits
    hold it for longer than anybody waits. -/
theorem lastGeneration_run_le (selector : DocumentSelector) (ops : List SyncOp) :
    ((new selector).run ops).lastGeneration ≤ ops.length := by
  have counted := run_induction (covered_new selector)
    (P := fun h s => s.lastGeneration ≤ h.length) ops (Nat.le_refl 0)
    fun before op after answer s' _ step ih => by
      have := step.lastGeneration_le
      simp only [List.length_append, List.length_singleton]
      omega
  simpa using counted

end DocumentSync

end LanguageClient
