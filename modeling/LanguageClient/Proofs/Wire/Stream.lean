import LanguageClient.Wire.Frame
/-!
# Chunks do not show

A reader takes lines and bodies out of a stream that comes in chunks.  What it takes depends on the
octets alone: `Holds s octets` says which octets are to come, and each way of taking has its equation
in terms of them.  Wherever the chunks end, in a line feed, inside a character, inside a numeral, the
same is taken.
-/

namespace LanguageClient.OctetStream

/-- Everything has come, in chunks of which none is empty, and `octets` is what was not read. -/
structure Holds (s : OctetStream) (octets : List UInt8) : Prop where
  ended : s.ended = true
  filled : [] ∉ s.chunks
  flatten : s.chunks.flatten = octets

theorem holds_ofChunks {chunks : List (List UInt8)} (filled : [] ∉ chunks) :
    (ofChunks chunks).Holds chunks.flatten :=
  ⟨rfl, filled, rfl⟩

theorem Holds.size {s : OctetStream} {octets : List UInt8} (holds : s.Holds octets) :
    s.size = octets.length := by
  rw [OctetStream.size, holds.flatten]

/-- Octets that come one by one. -/
theorem singles_filled (octets : List UInt8) : [] ∉ octets.map (fun b => [b]) := by
  simp

theorem flatten_singles (octets : List UInt8) : (octets.map fun b => [b]).flatten = octets := by
  rw [← List.flatMap_def, List.flatMap_singleton']

/-! ## Lines -/

theorem splitLine_append {line : List UInt8} (after : List UInt8) (single : 0x0A ∉ line) :
    splitLine (line ++ 0x0A :: after) = (line ++ [0x0A], some after) := by
  induction line with
  | nil => simp [splitLine]
  | cons b line ih =>
    rw [List.mem_cons, not_or] at single
    rw [List.cons_append, splitLine, if_neg (Ne.symm single.1), ih single.2]
    rfl

theorem splitLine_eq_none {part : List UInt8} (single : 0x0A ∉ part) :
    splitLine part = (part, none) := by
  induction part with
  | nil => rfl
  | cons b part ih =>
    rw [List.mem_cons, not_or] at single
    rw [splitLine, if_neg (Ne.symm single.1), ih single.2]

theorem append_lineFeed_inj {line line' after after' : List UInt8} (single : 0x0A ∉ line)
    (single' : 0x0A ∉ line') (same : line ++ 0x0A :: after = line' ++ 0x0A :: after') :
    line = line' ∧ after = after' := by
  have cut := splitLine_append after single
  rw [same, splitLine_append after' single'] at cut
  simpa [eq_comm] using cut

/-- Octets without a line feed at the beginning of others belong to the first line. -/
theorem part_of_line {part line rest octets : List UInt8} (single : 0x0A ∉ part)
    (same : part ++ octets = line ++ 0x0A :: rest) :
    ∃ more, line = part ++ more ∧ octets = more ++ 0x0A :: rest := by
  rcases List.append_eq_append_iff.mp same with ⟨more, rfl, rfl⟩ | ⟨more, rfl, tail⟩
  · exact ⟨more, rfl, rfl⟩
  · cases more with
    | nil => exact ⟨[], by simp, by simpa using tail.symm⟩
    | cons b more =>
      obtain ⟨rfl, -⟩ := List.cons.inj tail
      exact absurd (List.mem_append_right line List.mem_cons_self) single

theorem nil_notMem_withRest {rest : List UInt8} {chunks : List (List UInt8)}
    (filled : [] ∉ chunks) : [] ∉ withRest rest chunks := by
  cases rest <;> simp [withRest, filled]

theorem flatten_withRest (rest : List UInt8) (chunks : List (List UInt8)) :
    (withRest rest chunks).flatten = rest ++ chunks.flatten := by
  cases rest <;> simp [withRest]

theorem takeLineFrom_cons {ended : Bool} {chunk : List UInt8} {chunks : List (List UInt8)}
    (filled : chunk ≠ []) :
    takeLineFrom ended (chunk :: chunks) =
      match splitLine chunk with
      | (line, some rest) => .got line ⟨withRest rest chunks, ended⟩
      | (part, none) => (takeLineFrom ended chunks).prepend part := by
  cases chunk with
  | nil => exact absurd rfl filled
  | cons b chunk => rfl

theorem takeLineFrom_append {line rest : List UInt8} {chunks : List (List UInt8)}
    (single : 0x0A ∉ line) (filled : [] ∉ chunks) (whole : chunks.flatten = line ++ 0x0A :: rest) :
    ∃ chunks', takeLineFrom true chunks = .got (line ++ [0x0A]) ⟨chunks', true⟩ ∧
      [] ∉ chunks' ∧ chunks'.flatten = rest := by
  induction chunks generalizing line with
  | nil => simp at whole
  | cons chunk chunks ih =>
    rw [List.mem_cons, not_or] at filled
    rw [takeLineFrom_cons (Ne.symm filled.1)]
    by_cases fed : 0x0A ∈ chunk
    · obtain ⟨front, back, rfl, single'⟩ := List.eq_append_cons_of_mem fed
      -- the chunk holds the first line feed, so the line ends in it
      obtain ⟨rfl, rfl⟩ : front = line ∧ back ++ chunks.flatten = rest :=
        append_lineFeed_inj single' single (by simpa using whole)
      rw [splitLine_append back single]
      exact ⟨withRest back chunks, rfl, nil_notMem_withRest filled.2, flatten_withRest back chunks⟩
    · obtain ⟨more, rfl, tail⟩ := part_of_line fed (by simpa using whole)
      obtain ⟨chunks', taken, filled', flatten⟩ :=
        ih (fun mem => single (List.mem_append_right chunk mem)) filled.2 tail
      rw [splitLine_eq_none fed, taken]
      exact ⟨chunks', by simp [Taken.prepend], filled', flatten⟩

/-- A line is taken with its line feed, wherever the chunks end. -/
theorem takeLine_append {s : OctetStream} {line rest : List UInt8} (single : 0x0A ∉ line)
    (holds : s.Holds (line ++ 0x0A :: rest)) :
    ∃ s', s.takeLine = .got (line ++ [0x0A]) s' ∧ s'.Holds rest := by
  obtain ⟨chunks', taken, filled, flatten⟩ :=
    takeLineFrom_append single holds.filled holds.flatten
  refine ⟨⟨chunks', true⟩, ?_, rfl, filled, flatten⟩
  rw [takeLine, holds.ended, taken]

theorem takeLineFrom_last {last : List UInt8} {chunks : List (List UInt8)}
    (single : 0x0A ∉ last) (filled : [] ∉ chunks) (whole : chunks.flatten = last) :
    takeLineFrom true chunks = .got last ⟨[], true⟩ := by
  induction chunks generalizing last with
  | nil => simp [takeLineFrom, ← whole]
  | cons chunk chunks ih =>
    rw [List.mem_cons, not_or] at filled
    rw [List.flatten_cons] at whole
    subst whole
    rw [List.mem_append, not_or] at single
    rw [takeLineFrom_cons (Ne.symm filled.1), splitLine_eq_none single.1,
      ih single.2 filled.2 rfl]
    rfl

/-- Octets without a line feed are taken to the end of the stream; nothing is taken at the end. -/
theorem takeLine_last {s : OctetStream} {last : List UInt8} (single : 0x0A ∉ last)
    (holds : s.Holds last) : s.takeLine = .got last ⟨[], true⟩ := by
  rw [takeLine, holds.ended, takeLineFrom_last single holds.filled holds.flatten]

theorem holds_nil : Holds ⟨[], true⟩ [] :=
  ⟨rfl, by simp, rfl⟩

/-! ## Bodies -/

theorem takeExactFrom_zero (ended : Bool) (chunks : List (List UInt8)) :
    takeExactFrom ended chunks 0 = .got (some []) ⟨chunks, ended⟩ := by
  cases chunks <;> rfl

theorem takeExactFrom_cons {ended : Bool} {chunk : List UInt8} {chunks : List (List UInt8)}
    {n : Nat} (filled : chunk ≠ []) (positive : n ≠ 0) :
    takeExactFrom ended (chunk :: chunks) n =
      if n < chunk.length then .got (some (chunk.take n)) ⟨chunk.drop n :: chunks, ended⟩
      else (takeExactFrom ended chunks (n - chunk.length)).prepend? chunk := by
  cases chunk with
  | nil => exact absurd rfl filled
  | cons b chunk =>
    cases n with
    | zero => exact absurd rfl positive
    | succ n => rfl

theorem takeExactFrom_append {body rest : List UInt8} {chunks : List (List UInt8)}
    (filled : [] ∉ chunks) (whole : chunks.flatten = body ++ rest) :
    ∃ chunks', takeExactFrom true chunks body.length = .got (some body) ⟨chunks', true⟩ ∧
      [] ∉ chunks' ∧ chunks'.flatten = rest := by
  induction chunks generalizing body with
  | nil =>
    obtain ⟨rfl, rfl⟩ : body = [] ∧ rest = [] := by simpa using whole.symm
    exact ⟨[], rfl, by simp, rfl⟩
  | cons chunk chunks ih =>
    by_cases empty : body = []
    · subst empty
      exact ⟨chunk :: chunks, takeExactFrom_zero true _, filled, by simpa using whole⟩
    rw [List.mem_cons, not_or] at filled
    rw [takeExactFrom_cons (Ne.symm filled.1) (by simpa using empty)]
    rw [List.flatten_cons] at whole
    rcases List.append_eq_append_iff.mp whole with ⟨more, rfl, tail⟩ | ⟨more, rfl, tail⟩
    · -- the body takes the whole chunk
      obtain ⟨chunks', taken, filled', flatten⟩ := ih filled.2 tail
      have left : (chunk ++ more).length - chunk.length = more.length := by simp
      rw [if_neg (by simp), left, taken]
      exact ⟨chunks', rfl, filled', flatten⟩
    · -- the chunk goes on after the body
      by_cases exact : more = []
      · subst exact
        rw [if_neg (by simp)]
        simp only [List.append_nil, Nat.sub_self, takeExactFrom_zero]
        exact ⟨chunks, by simp [Taken.prepend?], filled.2, by simpa using tail.symm⟩
      · rw [if_pos (by simpa [List.length_pos_iff] using exact)]
        refine ⟨more :: chunks, by simp, ?_, by simpa using tail.symm⟩
        rw [List.mem_cons, not_or]
        exact ⟨Ne.symm exact, filled.2⟩

/-- As many octets are taken as were asked for, wherever the chunks end. -/
theorem takeExact_append {s : OctetStream} {body rest : List UInt8}
    (holds : s.Holds (body ++ rest)) :
    ∃ s', s.takeExact body.length = .got (some body) s' ∧ s'.Holds rest := by
  obtain ⟨chunks', taken, filled, flatten⟩ := takeExactFrom_append holds.filled holds.flatten
  refine ⟨⟨chunks', true⟩, ?_, rfl, filled, flatten⟩
  rw [takeExact, holds.ended, taken]

end LanguageClient.OctetStream
