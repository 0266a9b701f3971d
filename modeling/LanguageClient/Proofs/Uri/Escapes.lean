import LanguageClient.Proofs.Text.Utf8
import LanguageClient.Uri
/-!
# Reading escapes

An escape is a `%` with two hexadecimal digits after it.  `replaceEscapes` puts an octet in the place
of each escape, from the left, and keeps every other octet.

`Uri.unescape` takes two octets behind every `%` before it knows whether they are digits, and what it
has taken is gone.  `Scanned` says which octets those are; where there are none, `unescape` replaces
the escapes and nothing else.
-/

namespace LanguageClient.Uri

def percent : UInt8 := 0x25

/-- Two octets are the digits of an escape. -/
def Digits (c d : UInt8) : Prop :=
  (hexValue c).isSome ∧ (hexValue d).isSome

/-- The octets with an octet in the place of every escape. -/
def replaceEscapes : List UInt8 → List UInt8
  | b :: c :: d :: rest =>
    if b = percent then
      match hexValue c, hexValue d with
      | some h, some l => (h * 16 + l) :: replaceEscapes rest
      | _, _ => b :: replaceEscapes (c :: d :: rest)
    else b :: replaceEscapes (c :: d :: rest)
  | octets => octets

def Escaped (octets : List UInt8) : Prop :=
  ∃ before c d after, octets = before ++ percent :: c :: d :: after ∧ Digits c d

/-- Octets are read from the left as `out`, and the octets `lost` behind a `%` that begins no escape
    are passed over. -/
inductive Scanned : (octets out lost : List UInt8) → Prop where
  | nil : Scanned [] [] []
  | kept {b : UInt8} {rest out lost : List UInt8} (other : b ≠ percent)
      (scanned : Scanned rest out lost) : Scanned (b :: rest) (b :: out) lost
  | escape {c d h l : UInt8} {rest out lost : List UInt8} (high : hexValue c = some h)
      (low : hexValue d = some l) (scanned : Scanned rest out lost) :
      Scanned (percent :: c :: d :: rest) ((h * 16 + l) :: out) lost
  | passed {c d : UInt8} {rest out lost : List UInt8} (broken : ¬ Digits c d)
      (scanned : Scanned rest out lost) :
      Scanned (percent :: c :: d :: rest) (percent :: out) (c :: d :: lost)
  /-- The octets end before there are two behind the `%`. -/
  | ended {behind : List UInt8} (short : behind.length < 2) :
      Scanned (percent :: behind) [percent] behind

variable {octets rest out lost : List UInt8} {b c d h l : UInt8}

theorem digits_of_eq (high : hexValue c = some h) (low : hexValue d = some l) : Digits c d := by
  constructor
  · rw [high]
    rfl
  · rw [low]
    rfl

theorem exists_of_digits (digits : Digits c d) :
    ∃ h l, hexValue c = some h ∧ hexValue d = some l := by
  obtain ⟨h, high⟩ := Option.isSome_iff_exists.mp digits.1
  obtain ⟨l, low⟩ := Option.isSome_iff_exists.mp digits.2
  exact ⟨h, l, high, low⟩

/-! ## What is passed over -/

theorem unescape_kept (other : b ≠ percent) : unescape (b :: rest) = b :: unescape rest := by
  match rest with
  | [] => rfl
  | [c] => exact if_neg other
  | c :: d :: rest => exact (unescape.eq_4 b c d rest).trans (if_neg other)

theorem unescape_percent :
    unescape (percent :: c :: d :: rest) = match hexValue c, hexValue d with
      | some h, some l => (h * 16 + l) :: unescape rest
      | _, _ => percent :: unescape rest :=
  (unescape.eq_4 percent c d rest).trans (if_pos rfl)

theorem unescape_escape (high : hexValue c = some h) (low : hexValue d = some l) :
    unescape (percent :: c :: d :: rest) = (h * 16 + l) :: unescape rest := by
  rw [unescape_percent, high, low]

theorem unescape_passed (broken : ¬ Digits c d) :
    unescape (percent :: c :: d :: rest) = percent :: unescape rest := by
  rw [unescape_percent]
  split
  · next h l high low => exact absurd (digits_of_eq high low) broken
  · rfl

theorem unescape_ended (short : rest.length < 2) : unescape (percent :: rest) = [percent] := by
  match rest with
  | [] => rfl
  | [c] => rfl
  | c :: d :: rest =>
    rw [List.length_cons, List.length_cons] at short
    omega

theorem exists_scanned (octets : List UInt8) : ∃ out lost, Scanned octets out lost := by
  -- An escape takes three octets at once, so the induction is on how many are left.
  induction size : octets.length using Nat.strongRecOn generalizing octets with
  | _ n ih =>
    subst size
    cases octets with
    | nil => exact ⟨[], [], .nil⟩
    | cons b rest =>
      by_cases sign : b = percent
      · subst sign
        match rest with
        | [] => exact ⟨_, _, .ended Nat.two_pos⟩
        | [c] => exact ⟨_, _, .ended Nat.one_lt_two⟩
        | c :: d :: rest =>
          obtain ⟨out, lost, scanned⟩ := ih rest.length (by simp only [List.length_cons]; omega)
            rest rfl
          by_cases digits : Digits c d
          · obtain ⟨h, l, high, low⟩ := exists_of_digits digits
            exact ⟨_, _, .escape high low scanned⟩
          · exact ⟨_, _, .passed digits scanned⟩
      · obtain ⟨out, lost, scanned⟩ := ih rest.length (by simp only [List.length_cons]; omega)
          rest rfl
        exact ⟨_, _, .kept sign scanned⟩

theorem Scanned.out_eq (scanned : Scanned octets out lost) : out = unescape octets := by
  induction scanned with
  | nil => rfl
  | kept other _ ih => rw [unescape_kept other, ih]
  | escape high low _ ih => rw [unescape_escape high low, ih]
  | passed broken _ ih => rw [unescape_passed broken, ih]
  | ended short => rw [unescape_ended short]

theorem Scanned.lost_eq {out' lost' : List UInt8} (scanned : Scanned octets out lost)
    (other : Scanned octets out' lost') : lost = lost' := by
  induction scanned generalizing out' lost' with
  | nil =>
    cases other
    rfl
  | kept apart _ ih =>
    cases other with
    | kept _ rest => exact ih rest
    | escape _ _ _ => exact absurd rfl apart
    | passed _ _ => exact absurd rfl apart
    | ended _ => exact absurd rfl apart
  | escape high low _ ih =>
    cases other with
    | kept apart _ => exact absurd rfl apart
    | escape _ _ rest => exact ih rest
    -- two digits and no two digits cannot both follow
    | passed broken _ => exact absurd (digits_of_eq high low) broken
    | ended short =>
      rw [List.length_cons, List.length_cons] at short
      omega
  | passed broken _ ih =>
    cases other with
    | kept apart _ => exact absurd rfl apart
    | escape high low _ => exact absurd (digits_of_eq high low) broken
    | passed _ rest => rw [ih rest]
    | ended short =>
      rw [List.length_cons, List.length_cons] at short
      omega
  | ended short =>
    cases other with
    | kept apart _ => exact absurd rfl apart
    | escape _ _ _ =>
      rw [List.length_cons, List.length_cons] at short
      omega
    | passed _ _ =>
      rw [List.length_cons, List.length_cons] at short
      omega
    | ended _ => rfl

/-! ## Nothing but escapes -/

theorem replaceEscapes_kept (other : b ≠ percent) :
    replaceEscapes (b :: rest) = b :: replaceEscapes rest := by
  match rest with
  | [] => rfl
  | [c] => rfl
  | c :: d :: rest => rw [replaceEscapes, if_neg other]

theorem replaceEscapes_escape (high : hexValue c = some h) (low : hexValue d = some l) :
    replaceEscapes (percent :: c :: d :: rest) = (h * 16 + l) :: replaceEscapes rest := by
  rw [replaceEscapes, if_pos rfl, high, low]

theorem Scanned.out_eq_of_lossless (scanned : Scanned octets out lost) (lossless : lost = []) :
    out = replaceEscapes octets := by
  induction scanned with
  | nil => rfl
  | kept other _ ih => rw [replaceEscapes_kept other, ih lossless]
  | escape high low _ ih => rw [replaceEscapes_escape high low, ih lossless]
  | passed _ _ => exact absurd lossless (List.cons_ne_nil _ _)
  | ended _ =>
    subst lossless
    rfl

theorem Escaped.cons (escaped : Escaped rest) (b : UInt8) : Escaped (b :: rest) := by
  obtain ⟨before, c, d, after, rfl, digits⟩ := escaped
  exact ⟨b :: before, c, d, after, rfl, digits⟩

theorem escaped_of_digits (digits : Digits c d) : Escaped (percent :: c :: d :: rest) :=
  ⟨[], c, d, rest, rfl, digits⟩

theorem replaceEscapes_of_not_escaped (plain : ¬ Escaped octets) :
    replaceEscapes octets = octets := by
  fun_induction replaceEscapes octets with
  | case1 c d rest h l low high ih =>
    exact absurd (escaped_of_digits (digits_of_eq high low)) plain
  | case2 c d rest broken ih => rw [ih fun escaped => plain (escaped.cons _)]
  | case3 b c d rest other ih => rw [ih fun escaped => plain (escaped.cons _)]
  | case4 octets short => rfl

/-- Without an escape every octet is kept or passed over. -/
theorem Scanned.length_add (scanned : Scanned octets out lost) (plain : ¬ Escaped octets) :
    out.length + lost.length = octets.length := by
  induction scanned with
  | nil => rfl
  | kept _ _ ih =>
    have rest := ih fun escaped => plain (escaped.cons _)
    simp only [List.length_cons]
    omega
  | escape high low _ _ => exact absurd (escaped_of_digits (digits_of_eq high low)) plain
  | passed _ _ ih =>
    have rest := ih fun escaped => plain (((escaped.cons _).cons _).cons _)
    simp only [List.length_cons]
    omega
  | ended _ =>
    simp only [List.length_cons, List.length_nil]
    omega

/-- A text without escapes is read as itself exactly if nothing of it is passed over. -/
theorem decode_eq_self_iff {text : List Char} (scanned : Scanned (Utf8.encode text) out lost)
    (plain : ¬ Escaped (Utf8.encode text)) (sound : '\uFFFD' ∉ text) :
    decode text = text ↔ lost = [] := by
  have read : decode text = Utf8.decodeLossy out := by rw [decode, scanned.out_eq]
  constructor
  · intro same
    rw [read] at same
    -- What is read begins with the text, so as many octets are left as were there, and none is lost.
    have whole : Utf8.decodeLossy out = text ++ [] := by rw [same, List.append_nil]
    obtain ⟨more, split, -⟩ := Utf8.exists_octets_of_decodeLossy_eq_append sound whole
    have sizes := scanned.length_add plain
    have length : out.length = (Utf8.encode text).length + more.length := by
      rw [split, List.length_append]
    apply List.eq_nil_of_length_eq_zero
    omega
  · intro lossless
    rw [read, scanned.out_eq_of_lossless lossless, replaceEscapes_of_not_escaped plain,
      Utf8.decodeLossy_encode]

/-- **What is read.**  The octets of a text are scanned from the left, and what they are read as is
    the reading of the text.  Where nothing is passed over, this is the text with its escapes
    replaced; and a text without escapes that shows no broken piece is read as itself in no other
    case. -/
theorem decode_scanned (text : List Char) :
    ∃ out lost, Scanned (Utf8.encode text) out lost ∧
      (∀ out' lost', Scanned (Utf8.encode text) out' lost' → out' = out ∧ lost' = lost) ∧
      decode text = Utf8.decodeLossy out ∧
      (lost = [] → decode text = Utf8.decodeLossy (replaceEscapes (Utf8.encode text))) ∧
      (¬ Escaped (Utf8.encode text) → '\uFFFD' ∉ text → (decode text = text ↔ lost = [])) := by
  obtain ⟨out, lost, scanned⟩ := exists_scanned (Utf8.encode text)
  have read : decode text = Utf8.decodeLossy out := by rw [decode, scanned.out_eq]
  refine ⟨out, lost, scanned, ?_, read, ?_, decode_eq_self_iff scanned⟩
  · intro out' lost' other
    constructor
    · rw [other.out_eq, scanned.out_eq]
    · exact other.lost_eq scanned
  · intro lossless
    rw [read, scanned.out_eq_of_lossless lossless]

/-- The two octets behind a `%` that begins no escape are gone. -/
theorem decode_swallows :
    ¬ Escaped (Utf8.encode ['%', 'z', 'z']) ∧
    Utf8.decodeLossy (replaceEscapes (Utf8.encode ['%', 'z', 'z'])) = ['%', 'z', 'z'] ∧
    decode ['%', 'z', 'z'] = ['%'] := by
  refine ⟨?_, by decide +kernel, by decide +kernel⟩
  have octets : Utf8.encode ['%', 'z', 'z'] = [percent, 0x7A, 0x7A] := by decide +kernel
  rintro ⟨before, c, d, after, split, digits⟩
  rw [octets] at split
  cases before with
  | nil =>
    cases split
    exact absurd digits.1 (by decide)
  | cons b before =>
    have length := congrArg List.length split
    simp only [List.length_cons, List.length_nil, List.length_append, List.cons_append] at length
    omega

end LanguageClient.Uri
