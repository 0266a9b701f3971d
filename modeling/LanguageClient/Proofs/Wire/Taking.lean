import LanguageClient.Proofs.Wire.Stream
/-!
# What is taken of a stream, and what is left

Lines and bodies are taken from the beginning of a stream, and nothing is put back: `Yields` says
which octets were taken and what is left, and `Leaves` that something is left after several takings.
This holds of every stream, whether it has ended or not; only one that has not ended starves its
reader.

What was taken of a stream that has not ended is taken again when more has come (`takeLine_continued`,
`takeExact_continued`).
-/

namespace LanguageClient

namespace OctetStream

/-! ## What is left of a stream -/

/-- `s'` is left of `s` after `octets` were taken from its beginning. -/
structure Yields (s : OctetStream) (octets : List UInt8) (s' : OctetStream) : Prop where
  ended : s'.ended = s.ended
  filled : [] ∉ s'.chunks
  flatten : octets ++ s'.chunks.flatten = s.chunks.flatten

/-- `s'` is left of `s` after something, or nothing, was taken from its beginning. -/
def Leaves (s s' : OctetStream) : Prop :=
  ∃ octets, s.Yields octets s'

variable {s s' s'' : OctetStream} {octets : List UInt8}

theorem Yields.size_add (yields : s.Yields octets s') : octets.length + s'.size = s.size := by
  have lengths := congrArg List.length yields.flatten
  rwa [List.length_append] at lengths

theorem Leaves.refl (filled : [] ∉ s.chunks) : s.Leaves s :=
  ⟨[], rfl, filled, rfl⟩

theorem Leaves.yields (leaves : s.Leaves s') (yields : s'.Yields octets s'') : s.Leaves s'' := by
  obtain ⟨before, first⟩ := leaves
  refine ⟨before ++ octets, yields.ended.trans first.ended, yields.filled, ?_⟩
  rw [List.append_assoc, yields.flatten, first.flatten]

theorem Leaves.trans (first : s.Leaves s') (second : s'.Leaves s'') : s.Leaves s'' := by
  obtain ⟨octets, yields⟩ := second
  exact first.yields yields

theorem Leaves.ended (leaves : s.Leaves s') : s'.ended = s.ended := by
  obtain ⟨octets, yields⟩ := leaves
  exact yields.ended

theorem Leaves.filled (leaves : s.Leaves s') : [] ∉ s'.chunks := by
  obtain ⟨octets, yields⟩ := leaves
  exact yields.filled

theorem Leaves.size_le (leaves : s.Leaves s') : s'.size ≤ s.size := by
  obtain ⟨octets, yields⟩ := leaves
  have sizes := yields.size_add
  omega

theorem size_of_chunks_nil (empty : s.chunks = []) : s.size = 0 := by
  rw [size, empty, List.flatten_nil, List.length_nil]

/-! ## Lines -/

theorem splitLine_eq_some {chunk line rest : List UInt8}
    (split : splitLine chunk = (line, some rest)) : line ++ rest = chunk ∧ line ≠ [] := by
  induction chunk generalizing line with
  | nil => simp [splitLine] at split
  | cons b chunk ih =>
    rw [splitLine] at split
    split at split
    · obtain ⟨rfl, rfl⟩ : [b] = line ∧ chunk = rest := by simpa using split
      exact ⟨rfl, by simp⟩
    · obtain ⟨rfl, inner⟩ : b :: (splitLine chunk).1 = line ∧ (splitLine chunk).2 = some rest := by
        simpa using split
      obtain ⟨whole, -⟩ := ih (Prod.ext rfl inner)
      exact ⟨by rw [List.cons_append, whole], by simp⟩

theorem splitLine_part {chunk part : List UInt8} (split : splitLine chunk = (part, none)) :
    part = chunk := by
  induction chunk generalizing part with
  | nil =>
    obtain rfl : [] = part := by simpa [splitLine] using split
    rfl
  | cons b chunk ih =>
    rw [splitLine] at split
    split at split
    · simp at split
    · obtain ⟨rfl, inner⟩ : b :: (splitLine chunk).1 = part ∧ (splitLine chunk).2 = none := by
        simpa using split
      exact congrArg (b :: ·) (ih (Prod.ext rfl inner))

theorem takeLineFrom_yields {ended : Bool} {chunks : List (List UInt8)} {line : List UInt8}
    (filled : [] ∉ chunks) (taken : takeLineFrom ended chunks = .got line s') :
    Yields ⟨chunks, ended⟩ line s' ∧ (line = [] → ended = true ∧ chunks = []) := by
  induction chunks generalizing line with
  | nil =>
    rw [takeLineFrom] at taken
    split at taken
    · rename_i closed
      obtain ⟨rfl, rfl⟩ : [] = line ∧ (⟨[], true⟩ : OctetStream) = s' := by simpa using taken
      exact ⟨⟨closed.symm, by simp, rfl⟩, fun _ => ⟨closed, rfl⟩⟩
    · simp at taken
  | cons chunk chunks ih =>
    rw [List.mem_cons, not_or] at filled
    rw [takeLineFrom_cons (Ne.symm filled.1)] at taken
    split at taken
    -- the line ends within this chunk
    · rename_i front rest split
      obtain ⟨rfl, rfl⟩ : front = line ∧ (⟨withRest rest chunks, ended⟩ : OctetStream) = s' := by
        simpa using taken
      obtain ⟨rfl, some⟩ := splitLine_eq_some split
      constructor
      · exact ⟨rfl, nil_notMem_withRest filled.2, by simp [flatten_withRest]⟩
      · intro none
        exact absurd none some
    -- the line goes on in the next chunk
    · rename_i part split
      obtain rfl := splitLine_part split
      cases rest : takeLineFrom ended chunks with
      | starved => simp [rest, Taken.prepend] at taken
      | got more left =>
        obtain ⟨rfl, rfl⟩ : part ++ more = line ∧ left = s' := by
          simpa [rest, Taken.prepend] using taken
        obtain ⟨yields, -⟩ := ih filled.2 rest
        constructor
        · refine ⟨yields.ended, yields.filled, ?_⟩
          rw [List.append_assoc, yields.flatten, List.flatten_cons]
        · intro none
          exact absurd (List.append_eq_nil_iff.mp none).1 (Ne.symm filled.1)

theorem takeLineFrom_ended (chunks : List (List UInt8)) : takeLineFrom true chunks ≠ .starved := by
  induction chunks with
  | nil => simp [takeLineFrom]
  | cons chunk chunks ih =>
    cases chunk with
    | nil => simp [takeLineFrom]
    | cons b chunk =>
      rw [takeLineFrom_cons (by simp)]
      split
      · simp
      · cases rest : takeLineFrom true chunks with
        | starved => exact absurd rest ih
        | got more left => simp [Taken.prepend]

/-- A line is taken from the beginning of the stream; only the end of the stream gives nothing. -/
theorem takeLine_yields {line : List UInt8} (filled : [] ∉ s.chunks)
    (taken : s.takeLine = .got line s') :
    s.Yields line s' ∧ (line = [] → s.ended = true ∧ s.chunks = []) :=
  takeLineFrom_yields filled taken

theorem takeLine_starved (starved : s.takeLine = .starved) : s.ended = false := by
  cases closed : s.ended with
  | false => rfl
  | true =>
    rw [takeLine, closed] at starved
    exact absurd starved (takeLineFrom_ended s.chunks)

/-! ## Bodies -/

theorem takeExactFrom_yields {ended : Bool} {chunks : List (List UInt8)} {n : Nat}
    {body : Option (List UInt8)} (filled : [] ∉ chunks)
    (taken : takeExactFrom ended chunks n = .got body s') :
    (∀ octets, body = some octets → octets.length = n ∧ Yields ⟨chunks, ended⟩ octets s') ∧
      (body = none → ended = true ∧ Yields ⟨chunks, ended⟩ chunks.flatten s') := by
  induction chunks generalizing n body with
  | nil =>
    cases n with
    | zero =>
      obtain ⟨rfl, rfl⟩ : some [] = body ∧ (⟨[], ended⟩ : OctetStream) = s' := by
        simpa [takeExactFrom] using taken
      refine ⟨?_, by simp⟩
      rintro octets same
      obtain rfl := Option.some.inj same
      exact ⟨rfl, rfl, by simp, rfl⟩
    | succ n =>
      rw [takeExactFrom] at taken
      split at taken
      · rename_i closed
        obtain ⟨rfl, rfl⟩ : none = body ∧ (⟨[], true⟩ : OctetStream) = s' := by simpa using taken
        exact ⟨by simp, fun _ => ⟨closed, closed.symm, by simp, rfl⟩⟩
      · simp at taken
  | cons chunk chunks ih =>
    -- nothing more is to be taken
    by_cases none : n = 0
    · subst none
      rw [takeExactFrom_zero] at taken
      obtain ⟨rfl, rfl⟩ : some [] = body ∧ (⟨chunk :: chunks, ended⟩ : OctetStream) = s' := by
        simpa using taken
      refine ⟨?_, by simp⟩
      rintro octets same
      obtain rfl := Option.some.inj same
      exact ⟨rfl, rfl, filled, rfl⟩
    · rw [List.mem_cons, not_or] at filled
      rw [takeExactFrom_cons (Ne.symm filled.1) none] at taken
      split at taken
      · -- the chunk goes on after the body
        rename_i short
        obtain ⟨rfl, rfl⟩ : some (chunk.take n) = body ∧
            (⟨chunk.drop n :: chunks, ended⟩ : OctetStream) = s' := by simpa using taken
        refine ⟨?_, by simp⟩
        rintro octets same
        obtain rfl := Option.some.inj same
        refine ⟨by simp; omega, rfl, ?_, by simp [← List.append_assoc]⟩
        rw [List.mem_cons, not_or]
        have some : ¬ chunk.length ≤ n := by omega
        constructor
        · intro closed
          exact some (List.drop_eq_nil_iff.mp closed.symm)
        · exact filled.2
      · -- the body takes the whole chunk, and goes on
        rename_i long
        cases rest : takeExactFrom ended chunks (n - chunk.length) with
        | starved => simp [rest, Taken.prepend?] at taken
        | got more left =>
          obtain ⟨rfl, rfl⟩ : more.map (chunk ++ ·) = body ∧ left = s' := by
            simpa [rest, Taken.prepend?] using taken
          obtain ⟨whole, cut⟩ := ih filled.2 rest
          constructor
          · rintro octets same
            obtain ⟨others, rfl, rfl⟩ := Option.map_eq_some_iff.mp same
            obtain ⟨count, yields⟩ := whole others rfl
            refine ⟨by simp only [List.length_append]; omega, yields.ended, yields.filled, ?_⟩
            rw [List.append_assoc, yields.flatten, List.flatten_cons]
          · intro same
            obtain rfl := Option.map_eq_none_iff.mp same
            obtain ⟨closed, yields⟩ := cut rfl
            refine ⟨closed, yields.ended, yields.filled, ?_⟩
            rw [List.flatten_cons, List.append_assoc, yields.flatten]

theorem takeExactFrom_ended (chunks : List (List UInt8)) (n : Nat) :
    takeExactFrom true chunks n ≠ .starved := by
  induction chunks generalizing n with
  | nil => cases n <;> simp [takeExactFrom]
  | cons chunk chunks ih =>
    by_cases none : n = 0
    · simp [none, takeExactFrom_zero]
    · cases chunk with
      | nil =>
        obtain ⟨n, rfl⟩ := Nat.exists_eq_succ_of_ne_zero none
        simp [takeExactFrom]
      | cons b chunk =>
        rw [takeExactFrom_cons (by simp) none]
        split
        · simp
        · cases rest : takeExactFrom true chunks (n - (b :: chunk).length) with
          | starved => exact absurd rest (ih _)
          | got more left => simp [Taken.prepend?]

theorem takeExact_starved {n : Nat} (starved : s.takeExact n = .starved) : s.ended = false := by
  cases closed : s.ended with
  | false => rfl
  | true =>
    rw [takeExact, closed] at starved
    exact absurd starved (takeExactFrom_ended s.chunks n)

/-! ## A stream that goes on -/

/-- The stream when more chunks have come, and it may have ended. -/
def continued (s : OctetStream) (more : List (List UInt8)) (ended : Bool) : OctetStream :=
  ⟨s.chunks ++ more, ended⟩

variable {more : List (List UInt8)} {ended : Bool}

theorem withRest_append (rest : List UInt8) (chunks more : List (List UInt8)) :
    withRest rest (chunks ++ more) = withRest rest chunks ++ more := by
  cases rest <;> rfl

theorem takeLineFrom_continued {chunks : List (List UInt8)} {line : List UInt8}
    (filled : [] ∉ chunks) (taken : takeLineFrom false chunks = .got line s') :
    takeLineFrom ended (chunks ++ more) = .got line (s'.continued more ended) := by
  induction chunks generalizing line with
  | nil => simp [takeLineFrom] at taken
  | cons chunk chunks ih =>
    rw [List.mem_cons, not_or] at filled
    rw [takeLineFrom_cons (Ne.symm filled.1)] at taken
    rw [List.cons_append, takeLineFrom_cons (Ne.symm filled.1)]
    split at taken
    · obtain ⟨rfl, rfl⟩ := by simpa using taken
      rw [withRest_append]
      rfl
    · cases rest : takeLineFrom false chunks with
      | starved => simp [rest, Taken.prepend] at taken
      | got others left =>
        obtain ⟨rfl, rfl⟩ := by simpa [rest, Taken.prepend] using taken
        rw [ih filled.2 rest]
        rfl

/-- A line that was taken is taken again when the stream has gone on. -/
theorem takeLine_continued {line : List UInt8} (open' : s.ended = false) (filled : [] ∉ s.chunks)
    (taken : s.takeLine = .got line s') :
    (s.continued more ended).takeLine = .got line (s'.continued more ended) := by
  rw [takeLine, open'] at taken
  exact takeLineFrom_continued filled taken

theorem takeExactFrom_continued {chunks : List (List UInt8)} {n : Nat} {body : List UInt8}
    (filled : [] ∉ chunks) (taken : takeExactFrom false chunks n = .got (some body) s') :
    takeExactFrom ended (chunks ++ more) n = .got (some body) (s'.continued more ended) := by
  induction chunks generalizing n body with
  | nil =>
    cases n with
    | zero =>
      obtain ⟨rfl, rfl⟩ := by simpa [takeExactFrom] using taken
      exact takeExactFrom_zero ended more
    | succ n => simp [takeExactFrom] at taken
  | cons chunk chunks ih =>
    by_cases none : n = 0
    · subst none
      obtain ⟨rfl, rfl⟩ := by simpa [takeExactFrom_zero] using taken
      exact takeExactFrom_zero ended _
    · rw [List.mem_cons, not_or] at filled
      rw [takeExactFrom_cons (Ne.symm filled.1) none] at taken
      rw [List.cons_append, takeExactFrom_cons (Ne.symm filled.1) none]
      split at taken
      · obtain ⟨rfl, rfl⟩ := by simpa using taken
        rw [if_pos ‹_›]
        rfl
      · cases rest : takeExactFrom false chunks (n - chunk.length) with
        | starved => simp [rest, Taken.prepend?] at taken
        | got others left =>
          obtain ⟨same, rfl⟩ : others.map (chunk ++ ·) = some body ∧ left = s' := by
            simpa [rest, Taken.prepend?] using taken
          obtain ⟨others, rfl, rfl⟩ := Option.map_eq_some_iff.mp same
          rw [if_neg ‹_›, ih filled.2 rest]
          rfl

/-- A body that was taken is taken again when the stream has gone on. -/
theorem takeExact_continued {n : Nat} {body : List UInt8} (open' : s.ended = false)
    (filled : [] ∉ s.chunks) (taken : s.takeExact n = .got (some body) s') :
    (s.continued more ended).takeExact n = .got (some body) (s'.continued more ended) := by
  rw [takeExact, open'] at taken
  exact takeExactFrom_continued filled taken

end OctetStream

end LanguageClient
