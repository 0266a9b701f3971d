import LanguageClient.Proofs.Wire.Taking
import Mathlib.Data.Nat.Find
import Mathlib.Logic.Function.Iterate
/-!
# Every call comes on

Inside a header three things lead on without a result: a blank line before it, a line that is dropped
in search of a header, and a header that does not count.  Each of them takes a line, and no line is
empty, so the octets that are left are the measure of everything here.

`readHeader_line` says once what a line can come to.  `Outcome.Advances` says how far a call has come
with its outcome, and `readHeader_advances` is the induction; the rest is read off it: calls after one
another (`next`) come to the end of the stream, and stay there.
-/

namespace LanguageClient

namespace FrameReader

variable {s : OctetStream} {r r' : FrameReader}

/-! ## What a call does to the stream -/

/-- How far a call has come that began at the stream `s`: it starves only if more may come, it ends
    only at the end of the stream, and a result has cost octets. -/
def Outcome.Advances {α : Type} (s : OctetStream) : Outcome α → Prop
  | .starved => s.ended = false
  | .ended r => s.Leaves r.stream ∧ s.ended = true ∧ r.stream.size = 0
  | .failed e r => s.Leaves r.stream ∧ r.stream.size < s.size ∧
      (e.isMalformed = false → s.ended = true ∧ r.stream.size = 0)
  | .read _ r => s.Leaves r.stream ∧ r.stream.size < s.size

/-- A length that a line tells is one that is taken, and a line that is refused is malformed. -/
theorem headerLine_fits (line : List Char) :
    (∀ n, headerLine line = .length n → n ≤ maxContentLength) ∧
      ∀ e, headerLine line = .bad e → e.isMalformed = true := by
  unfold headerLine
  constructor
  · intro n said
    grind
  · intro e said
    grind [FrameError.isMalformed]

/-- What a line of a header comes to, whatever the stream it is taken from: the reader goes on to the
    next line, with a length at most that is taken; or the header ends and its length is known; or it
    is refused. -/
theorem readHeader_line {octets : List UInt8} (filled : octets ≠ []) (resync : Bool)
    (length : Option Nat) (begun : Bool) :
    (∃ resync' length' begun', (length' = length ∨ ∃ n ≤ maxContentLength, length' = some n) ∧
      ∀ (s s' : OctetStream) (fuel : Nat), s.takeLine = .got octets s' →
        readHeader (fuel + 1) ⟨s, resync⟩ length begun =
          readHeader fuel ⟨s', resync'⟩ length' begun') ∨
    (∃ n, length = some n ∧ ∀ (s s' : OctetStream) (fuel : Nat), s.takeLine = .got octets s' →
      readHeader (fuel + 1) ⟨s, resync⟩ length begun = .read n ⟨s', false⟩) ∨
    ∃ e : FrameError, e.isMalformed = true ∧
      ∀ (s s' : OctetStream) (fuel : Nat), s.takeLine = .got octets s' →
        readHeader (fuel + 1) ⟨s, resync⟩ length begun = .failed e ⟨s', true⟩ := by
  let text := Text.trimChars (Utf8.decodeLossy octets)
  cases heard : (if resync = true then findLengthHeader text else some text) with
  | none =>
    refine Or.inl ⟨resync, length, begun, Or.inl rfl, fun s s' fuel taken => ?_⟩
    rw [readHeader]
    simp only [taken, text, heard]
  | some line =>
    cases said : headerLine line with
    | blank =>
      -- a blank line ends a header that has begun, and is passed over before
      cases begun with
      | false =>
        refine Or.inl ⟨false, length, false, Or.inl rfl, fun s s' fuel taken => ?_⟩
        rw [readHeader]
        simp [taken, text, heard, said]
      | true =>
        cases length with
        | none =>
          refine Or.inr (Or.inr ⟨.noLength, rfl, fun s s' fuel taken => ?_⟩)
          rw [readHeader]
          simp [taken, text, heard, said]
        | some n =>
          refine Or.inr (Or.inl ⟨n, rfl, fun s s' fuel taken => ?_⟩)
          rw [readHeader]
          simp [taken, text, heard, said]
    | other =>
      refine Or.inl ⟨false, length, true, Or.inl rfl, fun s s' fuel taken => ?_⟩
      rw [readHeader]
      simp only [taken, text, heard, said]
    | length n =>
      refine Or.inl ⟨false, some n, true, Or.inr ⟨n, (headerLine_fits line).1 n said, rfl⟩,
        fun s s' fuel taken => ?_⟩
      rw [readHeader]
      simp only [taken, text, heard, said]
    | bad e =>
      refine Or.inr (Or.inr ⟨e, (headerLine_fits line).2 e said, fun s s' fuel taken => ?_⟩)
      rw [readHeader]
      simp only [taken, text, heard, said]

/-- At the end of the stream a header that has begun is broken off. -/
theorem readHeader_over {fuel : Nat} {length : Option Nat} {begun : Bool}
    (taken : r.stream.takeLine = .got [] s) :
    readHeader (fuel + 1) r length begun =
      if begun then .failed .endInHeader { r with stream := s } else .ended { r with stream := s } := by
  rw [readHeader]
  simp only [taken]

/-- The induction on the lines of a header.  `s` is the stream at which the call began: once the
    header has begun, something has been taken from it. -/
theorem readHeader_advances {fuel : Nat} {length : Option Nat} {begun : Bool}
    (left : s.Leaves r.stream) (enough : r.stream.size < fuel)
    (some : begun = true → r.stream.size < s.size) :
    (readHeader fuel r length begun).Advances s := by
  induction fuel generalizing r length begun with
  | zero => omega
  | succ fuel ih =>
    cases taken : r.stream.takeLine with
    | starved =>
      rw [readHeader, taken]
      exact left.ended.symm.trans (OctetStream.takeLine_starved taken)
    | got octets stream =>
      obtain ⟨yields, closed⟩ := OctetStream.takeLine_yields left.filled taken
      have left' : s.Leaves stream := left.yields yields
      have sizes := yields.size_add
      -- an empty line is the end of the stream; any other makes it shorter
      by_cases none : octets = []
      · subst none
        obtain ⟨ended, empty⟩ := closed rfl
        rw [OctetStream.size_of_chunks_nil empty] at sizes
        have rest : stream.size = 0 := by omega
        have past : s.ended = true := left.ended ▸ ended
        rw [readHeader_over taken]
        split
        · rename_i begun
          have before := some begun
          exact ⟨left', show stream.size < s.size by omega, fun _ => ⟨past, rest⟩⟩
        · exact ⟨left', past, rest⟩
      · have line : octets.length ≠ 0 := fun zero => none (List.length_eq_zero_iff.mp zero)
        have before := left.size_le
        have less : stream.size < s.size := by omega
        rcases readHeader_line none r.resync length begun with
          ⟨resync', length', begun', -, on⟩ | ⟨n, -, told⟩ | ⟨e, malformed, refused⟩
        · rw [on _ _ fuel taken]
          exact ih left' (show stream.size < fuel by omega) fun _ => less
        · rw [told _ _ fuel taken]
          exact ⟨left', less⟩
        · rw [refused _ _ fuel taken]
          exact ⟨left', less, fun broken => by simp [malformed] at broken⟩

/-- No length is told that is more than what is taken. -/
theorem le_of_readHeader {fuel n : Nat} {length : Option Nat} {begun : Bool}
    (small : ∀ k, length = some k → k ≤ maxContentLength)
    (told : readHeader fuel r length begun = .read n r') : n ≤ maxContentLength := by
  induction fuel generalizing r length begun with
  | zero => simp [readHeader] at told
  | succ fuel ih =>
    cases taken : r.stream.takeLine with
    | starved => simp [readHeader, taken] at told
    | got octets stream =>
      by_cases none : octets = []
      · subst none
        rw [readHeader_over taken] at told
        split at told <;> simp at told
      · rcases readHeader_line none r.resync length begun with
          ⟨resync', length', begun', same, on⟩ | ⟨k, same, told'⟩ | ⟨e, -, refused⟩
        · rw [on _ _ fuel taken] at told
          apply ih _ told
          intro k new
          rcases same with rfl | ⟨k', le, rfl⟩
          · exact small k new
          · exact Option.some.inj new ▸ le
        · rw [told' _ _ fuel taken] at told
          obtain ⟨rfl, -⟩ : k = n ∧ _ := by simpa using told
          exact small k same
        · simp [refused _ _ fuel taken] at told

theorem readBody_advances {n : Nat} (left : s.Leaves r.stream) (some : r.stream.size < s.size) :
    (readBody r n).Advances s := by
  rw [readBody]
  split
  · rename_i starved
    exact left.ended.symm.trans (OctetStream.takeExact_starved starved)
  · rename_i stream taken
    obtain ⟨closed, yields⟩ := (OctetStream.takeExactFrom_yields left.filled taken).2 rfl
    have none : stream.size = 0 := by
      have sizes := yields.size_add
      have whole : r.stream.size = r.stream.chunks.flatten.length := rfl
      change _ + _ = r.stream.size at sizes
      omega
    refine ⟨left.yields yields, ?_, fun _ => ⟨left.ended ▸ closed, none⟩⟩
    change stream.size < s.size
    omega
  · rename_i octets stream taken
    obtain ⟨-, yields⟩ := (OctetStream.takeExactFrom_yields left.filled taken).1 octets rfl
    have left' : s.Leaves stream := left.yields yields
    have less : stream.size < s.size := by
      have sizes := yields.size_add
      change _ + _ = r.stream.size at sizes
      omega
    dsimp only
    split
    · exact ⟨left', less, fun broken => by simp [FrameError.isMalformed] at broken⟩
    · split
      · exact ⟨left', less, fun broken => by simp [FrameError.isMalformed] at broken⟩
      · exact ⟨left', less⟩

/-- What a call of the reader does to its stream. -/
theorem read_advances (filled : [] ∉ r.stream.chunks) : r.read.Advances r.stream := by
  have header : (readHeader (r.stream.size + 1) r none false).Advances r.stream :=
    readHeader_advances (.refl filled) (Nat.lt_succ_self _) (by simp)
  rw [read]
  split
  · rename_i starved
    rw [starved] at header
    exact header
  · rename_i r' ended
    rw [ended] at header
    exact header
  · rename_i e r' failed
    rw [failed] at header
    exact header
  · rename_i n r' told
    rw [told] at header
    exact readBody_advances header.1 header.2

/-! ## A reader whose stream goes on -/

/-- The reader when more chunks have come, and the stream may have ended. -/
def continued (r : FrameReader) (more : List (List UInt8)) (ended : Bool) : FrameReader :=
  { r with stream := r.stream.continued more ended }

variable {more : List (List UInt8)} {ended : Bool}

/-- A header that was read is read again, by whatever fuel is enough for the longer stream. -/
theorem readHeader_continued {fuel fuel' : Nat} {length : Option Nat} {begun : Bool}
    (open' : r.stream.ended = false) (filled : [] ∉ r.stream.chunks) (le : fuel ≤ fuel') :
    (∀ n, readHeader fuel r length begun = .read n r' →
      readHeader fuel' (r.continued more ended) length begun = .read n (r'.continued more ended)) ∧
    ∀ e, readHeader fuel r length begun = .failed e r' →
      readHeader fuel' (r.continued more ended) length begun =
        .failed e (r'.continued more ended) := by
  induction fuel generalizing fuel' r length begun with
  | zero => simp [readHeader]
  | succ fuel ih =>
    obtain ⟨fuel', rfl⟩ : ∃ k, fuel' = k + 1 := ⟨fuel' - 1, by omega⟩
    cases taken : r.stream.takeLine with
    | starved => simp [readHeader, taken]
    | got octets stream =>
      obtain ⟨yields, closed⟩ := OctetStream.takeLine_yields filled taken
      have none : octets ≠ [] := fun none => by simp [(closed none).1] at open'
      have taken' : (r.continued more ended).stream.takeLine =
          .got octets (stream.continued more ended) :=
        OctetStream.takeLine_continued open' filled taken
      -- the line is the same in the longer stream, and so is what it comes to
      rcases readHeader_line none r.resync length begun with
        ⟨resync', length', begun', -, on⟩ | ⟨k, -, told⟩ | ⟨e', -, refused⟩
      · have again := on _ _ fuel' taken'
        rw [on _ _ fuel taken]
        have rest := @ih ⟨stream, resync'⟩ fuel' length' begun'
          (yields.ended.trans open') yields.filled (by omega)
        constructor
        · intro n read
          exact again.trans (rest.1 n read)
        · intro e failed
          exact again.trans (rest.2 e failed)
      · rw [told _ _ fuel taken]
        constructor
        · intro n read
          obtain ⟨rfl, rfl⟩ : k = n ∧ _ := by simpa using read
          exact told _ _ fuel' taken'
        · simp
      · rw [refused _ _ fuel taken]
        constructor
        · simp
        · intro e failed
          obtain ⟨rfl, rfl⟩ : e' = e ∧ _ := by simpa using failed
          exact refused _ _ fuel' taken'

theorem readBody_continued {n : Nat} (open' : r.stream.ended = false)
    (filled : [] ∉ r.stream.chunks) :
    (∀ m, readBody r n = .read m r' →
      readBody (r.continued more ended) n = .read m (r'.continued more ended)) ∧
    ∀ e, readBody r n = .failed e r' →
      readBody (r.continued more ended) n = .failed e (r'.continued more ended) := by
  cases taken : r.stream.takeExact n with
  | starved => simp [readBody, taken]
  | got body stream =>
    cases body with
    | none =>
      -- a body that is cut short needs a closed stream, and this one is open
      have closed := ((OctetStream.takeExactFrom_yields filled taken).2 rfl).1
      simp [closed] at open'
    | some octets =>
      have taken' : (r.continued more ended).stream.takeExact n =
          .got (some octets) (stream.continued more ended) :=
        OctetStream.takeExact_continued open' filled taken
      simp only [readBody, taken, taken']
      split
      · constructor
        · simp
        · intro e failed
          obtain ⟨rfl, rfl⟩ := by simpa using failed
          rfl
      · split
        · constructor
          · simp
          · intro e failed
            obtain ⟨rfl, rfl⟩ := by simpa using failed
            rfl
        · constructor
          · intro m read
            obtain ⟨rfl, rfl⟩ := by simpa using read
            rfl
          · simp

/-- What was read of a stream that has not ended is read of it again when it has gone on. -/
theorem read_continued (open' : r.stream.ended = false) (filled : [] ∉ r.stream.chunks) :
    (∀ m, r.read = .read m r' → (r.continued more ended).read = .read m (r'.continued more ended)) ∧
    ∀ e, r.read = .failed e r' → (r.continued more ended).read = .failed e (r'.continued more ended) := by
  have le : r.stream.size + 1 ≤ (r.continued more ended).stream.size + 1 := by
    simp [continued, OctetStream.continued, OctetStream.size]
  have advances : (readHeader (r.stream.size + 1) r none false).Advances r.stream :=
    readHeader_advances (.refl filled) (Nat.lt_succ_self _) (by simp)
  unfold read
  cases header : readHeader (r.stream.size + 1) r none false with
  | starved => simp
  | ended r₁ => simp
  | failed e r₁ =>
    constructor
    · simp
    · intro e' failed
      obtain ⟨rfl, rfl⟩ := by simpa using failed
      rw [(readHeader_continued open' filled le).2 e header]
  | read n r₁ =>
    rw [header] at advances
    rw [(readHeader_continued open' filled le).1 n header]
    exact readBody_continued (advances.1.ended.trans open') advances.1.filled

/-! ## Call after call -/

/-- The reader after a call. -/
def next (r : FrameReader) : FrameReader :=
  match r.read with
  | .starved => r
  | .ended r' | .failed _ r' | .read _ r' => r'

/-- The reader finds the end of the stream. -/
def AtEnd (r : FrameReader) : Prop :=
  ∃ r', r.read = .ended r'

theorem next_leaves (filled : [] ∉ r.stream.chunks) : r.stream.Leaves r.next.stream := by
  have advances := read_advances filled
  unfold next
  cases outcome : r.read with
  | starved => exact .refl filled
  | ended r' | failed e r' | read m r' =>
    rw [outcome] at advances
    exact advances.1

theorem filled_next (filled : [] ∉ r.stream.chunks) (n : Nat) :
    [] ∉ (next^[n] r).stream.chunks ∧ (next^[n] r).stream.ended = r.stream.ended := by
  induction n with
  | zero => exact ⟨filled, rfl⟩
  | succ n ih =>
    rw [Function.iterate_succ_apply']
    have leaves := next_leaves ih.1
    exact ⟨leaves.filled, leaves.ended.trans ih.2⟩

/-- A call that does not find the end of a stream that has ended takes octets from it. -/
theorem size_next (filled : [] ∉ r.stream.chunks) (closed : r.stream.ended = true) (open' : ¬ r.AtEnd) :
    r.next.stream.size < r.stream.size := by
  have advances := read_advances filled
  unfold next
  cases outcome : r.read with
  | starved =>
    rw [outcome] at advances
    have more : r.stream.ended = false := advances
    simp [closed] at more
  | ended r' => exact absurd ⟨r', outcome⟩ open'
  | failed e r' =>
    rw [outcome] at advances
    exact advances.2.1
  | read m r' =>
    rw [outcome] at advances
    exact advances.2

theorem atEnd_of_size (filled : [] ∉ r.stream.chunks) (closed : r.stream.ended = true)
    (empty : r.stream.size = 0) : r.AtEnd := by
  by_contra open'
  have less := size_next filled closed open'
  omega

/-- The end of the stream is found by every later call. -/
theorem AtEnd.next (atEnd : r.AtEnd) (filled : [] ∉ r.stream.chunks) : r.next.AtEnd := by
  obtain ⟨r', ended⟩ := atEnd
  have advances := read_advances filled
  rw [ended] at advances
  obtain ⟨leaves, closed, empty⟩ := advances
  have same : r.next = r' := by rw [FrameReader.next, ended]
  rw [same]
  exact atEnd_of_size leaves.filled (leaves.ended.trans closed) empty

theorem AtEnd.iterate (filled : [] ∉ r.stream.chunks) {n k : Nat} (atEnd : (FrameReader.next^[n] r).AtEnd)
    (le : n ≤ k) : (FrameReader.next^[k] r).AtEnd := by
  induction k, le using Nat.le_induction with
  | base => exact atEnd
  | succ k le ih =>
    rw [Function.iterate_succ_apply']
    exact ih.next (filled_next filled k).1

/-- So many calls find the end at the latest as there are octets, and one more. -/
theorem exists_atEnd (filled : [] ∉ r.stream.chunks) (closed : r.stream.ended = true) :
    ∃ k ≤ r.stream.size, ∀ n, (next^[n] r).AtEnd ↔ k ≤ n := by
  classical
  have found : ∃ n ≤ r.stream.size, (next^[n] r).AtEnd := by
    by_contra never
    push Not at never
    -- each call that does not find the end costs an octet at least
    have cost : ∀ n ≤ r.stream.size + 1, (next^[n] r).stream.size + n ≤ r.stream.size := by
      intro n le
      induction n with
      | zero => simp
      | succ n ih =>
        have before := ih (by omega)
        obtain ⟨filled', closed'⟩ := filled_next filled n
        have less := size_next filled' (closed'.trans closed) (never n (by omega))
        rw [Function.iterate_succ_apply']
        omega
    have last := cost (r.stream.size + 1) le_rfl
    omega
  obtain ⟨n, le, atEnd⟩ := found
  have some : ∃ n, (next^[n] r).AtEnd := ⟨n, atEnd⟩
  refine ⟨Nat.find some, Nat.le_trans (Nat.find_min' some atEnd) le, fun k => ?_⟩
  constructor
  · intro there
    exact Nat.find_min' some there
  · intro later
    exact AtEnd.iterate filled (Nat.find_spec some) later

/-- A stream that breaks off is at its end, and so does not break off again. -/
theorem atEnd_of_broken (filled : [] ∉ r.stream.chunks) {e : FrameError} (failed : r.read = .failed e r')
    (broken : e.isMalformed = false) : r'.stream.size = 0 ∧ r.next.AtEnd := by
  have advances := read_advances filled
  rw [failed] at advances
  obtain ⟨leaves, -, last⟩ := advances
  obtain ⟨closed, empty⟩ := last broken
  have same : r.next = r' := by rw [next, failed]
  rw [same]
  exact ⟨empty, atEnd_of_size leaves.filled (leaves.ended.trans closed) empty⟩

/-! ## What was heard -/

/-- The results of the first calls on `whole`, as long as there were any, and the reader after them. -/
def Hears (whole : FrameReader) (heard : List (Except FrameError Message)) (now : FrameReader) : Prop :=
  readAll heard.length whole = (heard, false) ∧ next^[heard.length] whole = now

/-- The reader after a call with a result. -/
inductive Answers (r : FrameReader) : Except FrameError Message → FrameReader → Prop where
  | message (m : Message) (r' : FrameReader) (read : r.read = .read m r') : Answers r (.ok m) r'
  | error (e : FrameError) (r' : FrameReader) (read : r.read = .failed e r') : Answers r (.error e) r'

variable {result : Except FrameError Message} {heard : List (Except FrameError Message)}
  {whole now now' : FrameReader}

theorem Answers.next_eq (answers : r.Answers result r') : r.next = r' := by
  cases answers with
  | message m _ read => rw [next, read]
  | error e _ read => rw [next, read]

theorem Answers.readAll (answers : r.Answers result r') (n : Nat) :
    FrameReader.readAll (n + 1) r =
      (result :: (FrameReader.readAll n r').1, (FrameReader.readAll n r').2) := by
  cases answers with
  | message m _ read => rw [FrameReader.readAll, read]
  | error e _ read => rw [FrameReader.readAll, read]

theorem hears_cons : Hears whole (result :: heard) now ↔
    ∃ r, whole.Answers result r ∧ Hears r heard now := by
  constructor
  · rintro ⟨all, after⟩
    rw [List.length_cons] at all after
    rw [Function.iterate_succ_apply] at after
    cases read : whole.read with
    | starved => simp [readAll, read] at all
    | ended r => simp [readAll, read] at all
    | failed e r =>
      have answers : whole.Answers (.error e) r := .error e r read
      rw [answers.readAll] at all
      obtain ⟨⟨rfl, rest⟩, open'⟩ := by simpa using all
      exact ⟨r, answers, Prod.ext rest open', answers.next_eq ▸ after⟩
    | read m r =>
      have answers : whole.Answers (.ok m) r := .message m r read
      rw [answers.readAll] at all
      obtain ⟨⟨rfl, rest⟩, open'⟩ := by simpa using all
      exact ⟨r, answers, Prod.ext rest open', answers.next_eq ▸ after⟩
  · rintro ⟨r, answers, all, after⟩
    constructor
    · rw [List.length_cons, answers.readAll, all]
    · rw [List.length_cons, Function.iterate_succ_apply, answers.next_eq, after]

theorem Hears.nothing (r : FrameReader) : Hears r [] r :=
  ⟨rfl, rfl⟩

theorem Hears.concat (hears : Hears whole heard now) (answers : now.Answers result now') :
    Hears whole (heard ++ [result]) now' := by
  induction heard generalizing whole with
  | nil =>
    obtain rfl : whole = now := hears.2
    exact hears_cons.mpr ⟨now', answers, .nothing now'⟩
  | cons first heard ih =>
    obtain ⟨r, before, rest⟩ := hears_cons.mp hears
    exact hears_cons.mpr ⟨r, before, ih rest⟩

theorem Answers.leaves (answers : r.Answers result r') (filled : [] ∉ r.stream.chunks) :
    r.stream.Leaves r'.stream := by
  have leaves := next_leaves filled
  rwa [answers.next_eq] at leaves

/-- Every result has cost octets. -/
theorem Answers.size_lt (answers : r.Answers result r') (filled : [] ∉ r.stream.chunks) :
    r'.stream.size < r.stream.size := by
  have advances := read_advances filled
  cases answers with
  | message m _ read =>
    rw [read] at advances
    exact advances.2
  | error e _ read =>
    rw [read] at advances
    exact advances.2.1

theorem Answers.continued (answers : r.Answers result r') (open' : r.stream.ended = false)
    (filled : [] ∉ r.stream.chunks) (more : List (List UInt8)) (ended : Bool) :
    (r.continued more ended).Answers result (r'.continued more ended) := by
  cases answers with
  | message m _ read => exact .message m _ ((read_continued open' filled).1 m read)
  | error e _ read => exact .error e _ ((read_continued open' filled).2 e read)

theorem Hears.leaves (hears : Hears whole heard now) (filled : [] ∉ whole.stream.chunks) :
    whole.stream.Leaves now.stream := by
  induction heard generalizing whole with
  | nil =>
    obtain rfl : whole = now := hears.2
    exact .refl filled
  | cons first heard ih =>
    obtain ⟨r, before, rest⟩ := hears_cons.mp hears
    have leaves := before.leaves filled
    exact leaves.trans (ih rest leaves.filled)

/-- What was heard is heard again when the stream has gone on. -/
theorem Hears.continued (hears : Hears whole heard now) (open' : whole.stream.ended = false)
    (filled : [] ∉ whole.stream.chunks) (more : List (List UInt8)) (ended : Bool) :
    Hears (whole.continued more ended) heard (now.continued more ended) := by
  induction heard generalizing whole with
  | nil =>
    obtain rfl : whole = now := hears.2
    exact .nothing _
  | cons first heard ih =>
    obtain ⟨r, before, rest⟩ := hears_cons.mp hears
    have leaves := before.leaves filled
    exact hears_cons.mpr ⟨_, before.continued open' filled more ended,
      ih rest (leaves.ended.trans open') leaves.filled⟩

theorem readAll_starved (starved : r.read = .starved) (n : Nat) : readAll n r = ([], false) := by
  cases n with
  | zero => rfl
  | succ n => rw [readAll, starved]

/-- Nothing is lost between what was heard and what is heard next. -/
theorem Hears.readAll_add (hears : Hears whole heard now) (n : Nat) :
    readAll (heard.length + n) whole = (heard ++ (readAll n now).1, (readAll n now).2) := by
  induction heard generalizing whole with
  | nil =>
    obtain rfl : whole = now := hears.2
    simp
  | cons first heard ih =>
    obtain ⟨r, before, rest⟩ := hears_cons.mp hears
    rw [List.length_cons, Nat.add_right_comm, before.readAll, ih rest]
    rfl

end FrameReader

end LanguageClient
