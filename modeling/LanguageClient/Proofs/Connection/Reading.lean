import LanguageClient.Proofs.Connection.Round
/-!
# A reader comes to an end

Every call of a reader takes something from the stream, or finds its end; so the calls on a stream
come to its end, and find it ever after (`exists_atEnd`).  A read loop goes on after a frame that is
malformed, but each of its steps is paid for by what has come (`steps_add`): it cannot be kept busy by
less.
-/

namespace LanguageClient

namespace FrameReader

variable {r r' : FrameReader}

/-- No call on a stream that has ended waits for more. -/
theorem read_ne_starved (filled : [] ∉ r.stream.chunks) (closed : r.stream.ended = true) :
    r.read ≠ .starved := by
  intro starved
  have advances := read_advances filled
  rw [starved] at advances
  have more : r.stream.ended = false := advances
  simp [closed] at more

/-- Every body that is asked for is one that is taken. -/
theorem le_of_read {fuel n : Nat} (told : readHeader fuel r none false = .read n r') :
    n ≤ maxContentLength :=
  le_of_readHeader (by simp) told

/-- The stream breaks off at one call at most: it is at its end then, and before that it was not. -/
theorem broken_once (filled : [] ∉ r.stream.chunks) {n k : Nat} {e e' : FrameError} {r₁ r₂ : FrameReader}
    (failed : (next^[n] r).read = .failed e r₁) (broken : e.isMalformed = false)
    (failed' : (next^[k] r).read = .failed e' r₂) (broken' : e'.isMalformed = false) : k = n := by
  -- the later of two calls would find the end
  have later : ∀ {n k : Nat} {e e' : FrameError} {r₁ r₂ : FrameReader},
      (next^[n] r).read = .failed e r₁ → e.isMalformed = false →
      (next^[k] r).read = .failed e' r₂ → k ≤ n := by
    intro n k e e' r₁ r₂ failed broken failed'
    by_contra less
    have atEnd := (atEnd_of_broken (filled_next filled n).1 failed broken).2
    rw [← Function.iterate_succ_apply' next] at atEnd
    obtain ⟨r₃, ended⟩ := AtEnd.iterate filled atEnd (show n + 1 ≤ k by omega)
    simp [ended] at failed'
  exact Nat.le_antisymm (later failed broken failed') (later failed' broken' failed)

end FrameReader

namespace Connection

/-- A read loop does not wait for a stream that has ended. -/
theorem stepRead_ne_none_of_ended {c : Connection} (filled : [] ∉ c.reader.stream.chunks)
    (closed : c.reader.stream.ended = true) (place : c.readPhase = .reading) : c.stepRead ≠ none := by
  have read := FrameReader.read_ne_starved filled closed
  intro none
  unfold stepRead at none
  rw [place] at none
  dsimp only at none
  split at none
  · simp at none
  · cases outcome : c.reader.read with
    | starved => exact read outcome
    | failed e reader =>
      rw [outcome] at none
      dsimp only at none
      split at none <;> simp at none
    | ended reader | read m reader => simp [outcome] at none

end Connection

namespace Channel

/-! ## The main result -/

/-- **Reading comes to an end.**  Whatever octets there are in a stream that has ended, in whatever
    chunks, and whether the reader looks for a header at first or not:

    * No call waits, and every call that gives an error or a message has taken octets.
    * No body is asked for that is longer than the limit.
    * A stream that breaks off has nothing left, and does so at one call at most.
    * After so many calls as there are octets, or less, every call finds the end.

    And in every run of a connection the frames that its read loop has heard, malformed or not, have
    each cost an octet that has come; all steps of the loop together are paid for by what has come;
    and the loop does not wait for a stream that has ended. -/
theorem reading_comes_to_an_end (chunks : List (List UInt8)) (filled : [] ∉ chunks) (resync : Bool)
    (name : String) (moves : List Move) :
    let call (n : Nat) : FrameReader := FrameReader.next^[n] { stream := .ofChunks chunks, resync }
    (∀ n, (call n).read ≠ .starved) ∧
    (∀ n r', (∃ m, (call n).read = .read m r') ∨ (∃ e, (call n).read = .failed e r') →
      r'.stream.size < (call n).stream.size) ∧
    (∀ n fuel length r', FrameReader.readHeader fuel (call n) none false = .read length r' →
      length ≤ maxContentLength) ∧
    (∀ n e r', (call n).read = .failed e r' → e.isMalformed = false →
      r'.stream.size = 0 ∧
      ∀ k e' r'', (call k).read = .failed e' r'' → e'.isMalformed = false → k = n) ∧
    (∃ k ≤ chunks.flatten.length, ∀ n, (∃ r', (call n).read = .ended r') ↔ k ≤ n) ∧
    let s := (machine name).after moves
    let come := (whole name moves).stream.size
    (heard name moves).length + s.connection.reader.stream.size ≤ come ∧
    (events name moves).countP LoopEvent.isStep ≤ 4 + 3 * come ∧
    (s.connection.readPhase = .reading → s.connection.reader.stream.ended = true →
      s.connection.stepRead ≠ none) := by
  intro call
  -- no chunk is empty, so every call that gives something takes octets
  have some (n : Nat) : [] ∉ (call n).stream.chunks := (FrameReader.filled_next filled n).1
  have closed (n : Nat) : (call n).stream.ended = true := (FrameReader.filled_next filled n).2
  refine ⟨fun n => FrameReader.read_ne_starved (some n) (closed n), fun n r' result => ?_,
    fun n fuel length r' told => FrameReader.le_of_read told, fun n e r' failed broken => ?_,
    FrameReader.exists_atEnd (r := { stream := .ofChunks chunks, resync }) filled rfl,
    length_heard_add moves, ?_, fun place ended => ?_⟩
  · rcases result with ⟨m, read⟩ | ⟨e, failed⟩
    · exact (FrameReader.Answers.message m r' read).size_lt (some n)
    · exact (FrameReader.Answers.error e r' failed).size_lt (some n)
  · exact ⟨(FrameReader.atEnd_of_broken (some n) failed broken).1, fun k e' r'' failed' broken' =>
      FrameReader.broken_once filled failed broken failed' broken'⟩
  · have steps := @steps_add name moves
    omega
  · exact Connection.stepRead_ne_none_of_ended (filled_after moves) ended place

/-- A header without a length, and octets that are no header: the reader gives one error, and then
    finds the end. -/
theorem reading_comes_to_an_end_junk :
    let chunks : List (List UInt8) := [[120, 58, 49, 10], [10, 120]]
    [] ∉ chunks ∧ ∃ k ≤ 6, ∀ n,
      (∃ r', (FrameReader.next^[n] { stream := .ofChunks chunks }).read = .ended r') ↔ k ≤ n :=
  ⟨by decide, (reading_comes_to_an_end [[120, 58, 49, 10], [10, 120]] (by decide) false "rust" []).2.2.2.2.1⟩

end Channel

end LanguageClient
