import Mathlib.Tactic.SplitIfs
import LanguageClient.Json.Parser
import LanguageClient.Json.Printer
import LanguageClient.Proofs.Text.Numeral
/-!
# Numbers in JSON text

A number ends where no character follows that could go on it.  So what the reader makes of the
characters of a number does not depend on what comes after them: `takes_of_readNumber` splits a
text that was read into the number and the rest, and says that the number is taken in front of any
other rest, too.

Integers of 64 bits are read back from their text (`numberText_int`), and only such are read
(`float_or_fits64_of_readNumber`).  A floating point number need not be read back, since the reader
rounds twice.
-/

namespace LanguageClient.Json

open Numeral (digit? isDigit)

/-! ## Where a number ends -/

/-- The characters do not begin with a digit. -/
def NoDigit (rest : List Char) : Prop :=
  ∀ c ∈ rest.head?, isDigit c = false

/-- The characters begin with none that could go on a number. -/
def Breaks (rest : List Char) : Prop :=
  ∀ c ∈ rest.head?, isDigit c = false ∧ c ≠ '.' ∧ c ≠ 'e' ∧ c ≠ 'E'

theorem breaks_nil : Breaks [] := by
  simp [Breaks]

theorem Breaks.noDigit {rest : List Char} (breaks : Breaks rest) : NoDigit rest :=
  fun c mem => (breaks c mem).1

/-- A reader takes these characters as a value, in front of whatever does not go on a number. -/
def Takes (read : List Char → Option (Json × List Char)) (taken : List Char) (v : Json) : Prop :=
  ∀ rest, Breaks rest → read (taken ++ rest) = some (v, rest)

/-- What a text begins with, once the rest after its first part is another. -/
theorem mem_head?_append {taken rest' : List Char} {c : Char} (rest : List Char)
    (mem : c ∈ (taken ++ rest').head?) : c ∈ (taken ++ rest).head? ∨ c ∈ rest'.head? := by
  cases taken with
  | nil => exact .inr mem
  | cons d taken => exact .inl mem

/-! ## Digits -/

theorem exists_digits (cs : List Char) :
    ∃ digits rest, cs = digits ++ rest ∧ (∀ c ∈ digits, isDigit c = true) ∧ NoDigit rest := by
  refine ⟨cs.takeWhile isDigit, cs.dropWhile isDigit, List.takeWhile_append_dropWhile.symm,
    fun c mem => List.mem_takeWhile_imp mem, fun c mem => ?_⟩
  have := List.head?_dropWhile_not isDigit cs
  rw [Option.mem_def.mp mem] at this
  simpa using this

section Digits

variable {digits rest : List Char} (allDigits : ∀ c ∈ digits, isDigit c = true)
  (noDigit : NoDigit rest)

include allDigits noDigit

theorem takeWhile_digits : (digits ++ rest).takeWhile isDigit = digits := by
  rw [List.takeWhile_append_of_pos allDigits]
  cases rest with
  | nil => simp
  | cons c rest => simp [noDigit c rfl]

theorem dropWhile_digits : (digits ++ rest).dropWhile isDigit = rest := by
  rw [List.dropWhile_append_of_pos allDigits]
  cases rest with
  | nil => rfl
  | cons c rest => rw [List.dropWhile_cons_of_neg (by simp [noDigit c rfl])]

/-- The digits of a significand are taken to the last. -/
theorem readDigits_append (significand read dropped : Nat) :
    readDigits significand read dropped (digits ++ rest)
      = ((readDigits significand read dropped digits).1,
        (readDigits significand read dropped digits).2.1,
        (readDigits significand read dropped digits).2.2.1, rest) := by
  induction digits generalizing significand read dropped with
  | nil =>
    cases rest with
    | nil => rfl
    | cons c rest =>
      have none : digit? c = none := by simpa [isDigit] using noDigit c rfl
      simp [readDigits, none]
  | cons c digits ih =>
    rw [List.forall_mem_cons] at allDigits
    obtain ⟨d, value⟩ := Option.isSome_iff_exists.mp allDigits.1
    simp only [List.cons_append, readDigits, value]
    split_ifs
    · exact ih allDigits.2 _ _ _
    · exact ih allDigits.2 _ _ _

end Digits

theorem le_ofDigitChars (digits : List Char) (acc : Nat) :
    acc ≤ Nat.ofDigitChars 10 digits acc := by
  rw [Nat.ofDigitChars_eq_ofDigitChars_zero]
  exact Nat.le_add_right_of_le (Nat.le_mul_of_pos_left acc (Nat.pow_pos (by decide)))

/-- Digits that fit are all taken. -/
theorem readDigits_fitting {digits : List Char} {significand : Nat}
    (allDigits : ∀ c ∈ digits, c.isDigit = true)
    (fits : Nat.ofDigitChars 10 digits significand ≤ Numeral.maxWord64) (read : Nat) :
    readDigits significand read 0 digits
      = (Nat.ofDigitChars 10 digits significand, read + digits.length, 0, []) := by
  induction digits generalizing significand read with
  | nil => rfl
  | cons c digits ih =>
    rw [List.forall_mem_cons] at allDigits
    rw [Nat.ofDigitChars_cons] at fits ⊢
    have next : significand * 10 + (c.toNat - 48) = 10 * significand + (c.toNat - '0'.toNat) := by
      rw [Nat.mul_comm]; rfl
    have small := (le_ofDigitChars digits _).trans fits
    simp only [readDigits, Numeral.digit?_of_isDigit allDigits.1, next]
    rw [if_pos ⟨trivial, small⟩, ih allDigits.2 fits, List.length_cons, Nat.add_right_comm,
      Nat.add_assoc]

/-- A significand never exceeds 64 bits. -/
theorem readDigits_le {significand : Nat} (fits : significand ≤ Numeral.maxWord64)
    (read dropped : Nat) (cs : List Char) :
    (readDigits significand read dropped cs).1 ≤ Numeral.maxWord64 := by
  induction cs generalizing significand read dropped with
  | nil => exact fits
  | cons c cs ih =>
    rw [readDigits]
    split
    · exact fits
    · split_ifs with more
      · exact ih more.2 _ _
      · exact ih fits _ _

/-! ## Exponents and fractions -/

/-- Whether a number goes on after the digits of its integer part. -/
def goesOn : List Char → Bool
  | c :: _ => c == '.' || c == 'e' || c == 'E'
  | [] => false

theorem Breaks.goesOn {rest : List Char} (breaks : Breaks rest) : goesOn rest = false := by
  cases rest with
  | nil => rfl
  | cons c rest => simpa [Json.goesOn, and_assoc] using (breaks c rfl).2

/-- The digits of an exponent, after its sign. -/
def exponentDigits (negative : Bool) (cs : List Char) : Option (Bool × Nat × List Char) :=
  match cs.takeWhile isDigit with
  | [] => none
  | ds => (Numeral.digits? ds).map fun n => (negative, n, cs.dropWhile isDigit)

theorem readExponent_eq (cs : List Char) : readExponent cs = match cs with
    | '+' :: rest => exponentDigits false rest
    | '-' :: rest => exponentDigits true rest
    | cs => exponentDigits false cs := by
  unfold readExponent exponentDigits
  split
  case h_1 => rfl
  case h_2 => rfl
  case h_3 => cases digits : cs.takeWhile isDigit <;> simp only [digits]

theorem takes_of_exponentDigits {negative down : Bool} {cs rest : List Char} {n : Nat}
    (read : exponentDigits negative cs = some (down, n, rest)) :
    ∃ digits, cs = digits ++ rest ∧ (∃ c ∈ digits.head?, isDigit c = true)
      ∧ ∀ rest', NoDigit rest' →
        exponentDigits negative (digits ++ rest') = some (down, n, rest') := by
  obtain ⟨digits, tail, rfl, allDigits, noDigit⟩ := exists_digits cs
  rw [exponentDigits, takeWhile_digits allDigits noDigit,
    dropWhile_digits allDigits noDigit] at read
  cases digits with
  | nil => cases read
  | cons c digits =>
    obtain ⟨m, value, same⟩ := Option.map_eq_some_iff.mp read
    cases same
    refine ⟨c :: digits, rfl, ⟨c, rfl, allDigits c List.mem_cons_self⟩, fun rest' noDigit' => ?_⟩
    rw [exponentDigits, takeWhile_digits allDigits noDigit', dropWhile_digits allDigits noDigit']
    exact Option.map_eq_some_iff.mpr ⟨n, value, rfl⟩

theorem takes_of_readExponent {cs rest : List Char} {down : Bool} {n : Nat}
    (read : readExponent cs = some (down, n, rest)) :
    ∃ taken, cs = taken ++ rest
      ∧ ∀ rest', NoDigit rest' → readExponent (taken ++ rest') = some (down, n, rest') := by
  rw [readExponent_eq] at read
  split at read
  case h_1 cs =>
    obtain ⟨digits, rfl, -, takes⟩ := takes_of_exponentDigits read
    refine ⟨'+' :: digits, rfl, fun rest' noDigit => ?_⟩
    rw [readExponent_eq]
    exact takes rest' noDigit
  case h_2 cs =>
    obtain ⟨digits, rfl, -, takes⟩ := takes_of_exponentDigits read
    refine ⟨'-' :: digits, rfl, fun rest' noDigit => ?_⟩
    rw [readExponent_eq]
    exact takes rest' noDigit
  case h_3 cs _ _ =>
    obtain ⟨digits, rfl, ⟨c, first, isDigit⟩, takes⟩ := takes_of_exponentDigits read
    refine ⟨digits, rfl, fun rest' noDigit => ?_⟩
    obtain ⟨tail, rfl⟩ := List.head?_eq_some_iff.mp first
    rw [readExponent_eq]
    -- a digit is no sign
    split
    case h_1 same => cases same; exact absurd isDigit (by decide)
    case h_2 same => cases same; exact absurd isDigit (by decide)
    case h_3 => exact takes rest' noDigit

theorem takes_of_finishFloat {negative : Bool} {significand : Nat} {scale : Int}
    {cs rest : List Char} {v : Json}
    (read : finishFloat negative significand scale cs = some (v, rest)) :
    ∃ taken, cs = taken ++ rest ∧ Takes (finishFloat negative significand scale) taken v
      ∧ (taken = [] → ∀ c ∈ cs.head?, c ≠ 'e' ∧ c ≠ 'E') := by
  -- without an exponent the value is settled where the digits end
  have plain : ∀ x, Binary64.ofDecimal? negative significand scale = some x →
      Takes (finishFloat negative significand scale) [] (float x) := by
    intro x value rest breaks
    cases rest with
    | nil => simp [finishFloat, value]
    | cons c rest =>
      have := breaks c rfl
      simp [finishFloat, this.2.2, value]
  cases cs with
  | nil =>
    obtain ⟨x, value, same⟩ := Option.map_eq_some_iff.mp read
    cases same
    exact ⟨[], rfl, plain x value, fun _ _ mem => by cases mem⟩
  | cons c cs =>
    rw [finishFloat] at read
    split_ifs at read with letter
    · obtain ⟨⟨down, n, tail⟩, exponent, value⟩ := Option.bind_eq_some_iff.mp read
      obtain ⟨taken, rfl, takes⟩ := takes_of_readExponent exponent
      simp only [Option.map_eq_some_iff, Prod.mk.injEq] at value
      obtain ⟨x, value, rfl, rfl⟩ := value
      refine ⟨c :: taken, rfl, fun rest' breaks => ?_, fun empty => by cases empty⟩
      rw [List.cons_append, finishFloat, if_pos letter, takes rest' breaks.noDigit,
        Option.bind_some]
      exact Option.map_eq_some_iff.mpr ⟨x, value, rfl⟩
    · obtain ⟨x, value, same⟩ := Option.map_eq_some_iff.mp read
      cases same
      refine ⟨[], rfl, plain x value, fun _ d first => ?_⟩
      cases first
      exact not_or.mp letter

theorem takes_of_readFraction {negative : Bool} {significand dropped : Nat}
    {cs rest : List Char} {v : Json}
    (read : readFraction negative significand dropped cs = some (v, rest)) :
    ∃ taken, cs = taken ++ rest ∧ Takes (readFraction negative significand dropped) taken v
      ∧ (taken = [] → goesOn cs = false) := by
  unfold readFraction at read
  split at read
  case h_1 cs =>
    obtain ⟨digits, tail, rfl, allDigits, noDigit⟩ := exists_digits cs
    simp only [readDigits_append allDigits noDigit] at read
    split_ifs at read with none
    obtain ⟨taken, rfl, takes, -⟩ := takes_of_finishFloat read
    -- no digit follows, so the digits of the fraction are all of them
    have noDigit' : ∀ rest', Breaks rest' → NoDigit (taken ++ rest') := fun rest' breaks c mem =>
      (mem_head?_append rest mem).elim (noDigit c) fun first => (breaks c first).1
    refine ⟨'.' :: (digits ++ taken), by simp, fun rest' breaks => ?_, fun empty => by cases empty⟩
    rw [List.cons_append, List.append_assoc, readFraction]
    simp only [readDigits_append allDigits (noDigit' rest' breaks), if_neg none]
    exact takes rest' breaks
  case h_2 noPoint =>
    obtain ⟨taken, rfl, takes, noLetter⟩ := takes_of_finishFloat read
    refine ⟨taken, rfl, fun rest' breaks => ?_, fun empty => ?stops⟩
    case stops =>
      cases cs : taken ++ rest with
      | nil => rfl
      | cons c tail =>
        have noPoint : c ≠ '.' := fun point => noPoint tail (point ▸ cs)
        have noLetter := noLetter empty c (by rw [cs]; rfl)
        simp [goesOn, noPoint, noLetter]
    unfold readFraction
    split
    case h_1 tail same =>
      rcases mem_head?_append rest (c := '.') (by rw [same]; rfl) with first | first
      · obtain ⟨tail, same⟩ := List.head?_eq_some_iff.mp first
        exact absurd same (noPoint tail)
      · exact absurd rfl (breaks _ first).2.1
    case h_2 => exact takes rest' breaks

/-! ## Whole numbers -/

/-- What `readNumber` makes of the digits of the integer part, if it does not go on. -/
def integerOf (negative : Bool) (significand : Nat) : Option Json :=
  if !negative then some (int significand)
  else if 0 < significand ∧ significand ≤ 9223372036854775808 then some (int (-significand))
  else (Binary64.ofDecimal? true significand 0).map float

/-- A number is read in two parts, the digits of its integer part and what is after them. -/
theorem readNumber_eq {digits rest : List Char} (negative : Bool)
    (allDigits : ∀ c ∈ digits, isDigit c = true) (noDigit : NoDigit rest) :
    readNumber negative (digits ++ rest) =
      if digits = [] ∨ (digits.head? = some '0' ∧ 1 < digits.length) then none
      else if !goesOn rest && (readDigits 0 0 0 digits).2.2.1 == 0 then
        (integerOf negative (readDigits 0 0 0 digits).1).map fun v => (v, rest)
      else readFraction negative (readDigits 0 0 0 digits).1
        (readDigits 0 0 0 digits).2.2.1 rest := by
  cases digits with
  | nil =>
    rw [if_pos (.inl rfl), List.nil_append]
    cases rest with
    | nil => rfl
    | cons c rest => simp [readNumber, noDigit c rfl]
  | cons c digits =>
    -- a leading zero is seen by looking at one character more
    have second : ((digits ++ rest).head?.map isDigit).getD false = true
        ↔ 1 < (c :: digits).length := by
      cases digits with
      | nil =>
        cases rest with
        | nil => simp
        | cons d rest => simp [noDigit d rfl]
      | cons d digits => simp [allDigits d (by simp)]
    have digit : isDigit c = true := allDigits c List.mem_cons_self
    have taken := readDigits_append allDigits noDigit 0 0 0
    rw [List.cons_append] at taken ⊢
    simp only [readNumber, digit, taken, second]
    simp only [Bool.not_true, Bool.false_eq_true, if_false, List.cons_ne_nil, false_or,
      List.head?_cons, Option.some.injEq, integerOf,
      apply_ite (Option.map fun v => (v, rest)), Option.map_some, Option.map_map]
    rfl

/-- A number that was read is taken in front of any other rest, too. -/
theorem takes_of_readNumber {negative : Bool} {cs rest : List Char} {v : Json}
    (read : readNumber negative cs = some (v, rest)) :
    ∃ taken, cs = taken ++ rest ∧ Takes (readNumber negative) taken v := by
  obtain ⟨digits, tail, rfl, allDigits, noDigit⟩ := exists_digits cs
  rw [readNumber_eq negative allDigits noDigit] at read
  split_ifs at read with shape stops
  · obtain ⟨w, value, same⟩ := Option.map_eq_some_iff.mp read
    cases same
    refine ⟨digits, rfl, fun rest' breaks => ?_⟩
    rw [readNumber_eq negative allDigits breaks.noDigit, if_neg shape, breaks.goesOn, if_pos]
    · exact Option.map_eq_some_iff.mpr ⟨v, value, rfl⟩
    · exact (Bool.and_eq_true_iff.mp stops).2
  · obtain ⟨taken, rfl, takes, noMore⟩ := takes_of_readFraction read
    refine ⟨digits ++ taken, (List.append_assoc _ _ _).symm, fun rest' breaks => ?_⟩
    have noDigit' : NoDigit (taken ++ rest') := fun c mem =>
      (mem_head?_append rest mem).elim (noDigit c) fun first => (breaks c first).1
    rw [List.append_assoc, readNumber_eq negative allDigits noDigit', if_neg shape]
    have goesOn' : goesOn (taken ++ rest') = goesOn (taken ++ rest) := by
      cases taken with
      | nil => exact breaks.goesOn.trans (noMore rfl).symm
      | cons c taken => rfl
    rw [goesOn', if_neg stops]
    exact takes rest' breaks

/-- A text that is read to its end as a number is taken as it in front of anything. -/
theorem takes_of_readNumber_nil {negative : Bool} {cs : List Char} {v : Json}
    (read : readNumber negative cs = some (v, [])) : Takes (readNumber negative) cs v := by
  obtain ⟨taken, rfl, takes⟩ := takes_of_readNumber read
  rwa [List.append_nil]

/-! ## Which numbers are integers -/

/-- The integers that are held as such, those of 64 bits with or without sign. -/
def Fits64 (n : Int) : Prop :=
  -9223372036854775808 ≤ n ∧ n ≤ 18446744073709551615

instance (n : Int) : Decidable (Fits64 n) :=
  inferInstanceAs (Decidable (_ ∧ _))

theorem float_of_finishFloat {negative : Bool} {significand : Nat} {scale : Int}
    {cs rest : List Char} {v : Json}
    (read : finishFloat negative significand scale cs = some (v, rest)) : ∃ x, v = float x := by
  unfold finishFloat at read
  split at read
  · split_ifs at read
    · obtain ⟨⟨down, n, tail⟩, -, value⟩ := Option.bind_eq_some_iff.mp read
      simp only [Option.map_eq_some_iff, Prod.mk.injEq] at value
      obtain ⟨x, -, same, -⟩ := value
      exact ⟨x, same.symm⟩
    · obtain ⟨x, -, same⟩ := Option.map_eq_some_iff.mp read
      exact ⟨x, (congrArg Prod.fst same).symm⟩
  · obtain ⟨x, -, same⟩ := Option.map_eq_some_iff.mp read
    exact ⟨x, (congrArg Prod.fst same).symm⟩

theorem float_of_readFraction {negative : Bool} {significand dropped : Nat}
    {cs rest : List Char} {v : Json}
    (read : readFraction negative significand dropped cs = some (v, rest)) : ∃ x, v = float x := by
  unfold readFraction at read
  split at read
  · simp only at read
    split_ifs at read
    exact float_of_finishFloat read
  · exact float_of_finishFloat read

/-- A number is read as a floating point number or as an integer of 64 bits. -/
theorem float_or_fits64_of_readNumber {negative : Bool} {cs rest : List Char} {v : Json}
    (read : readNumber negative cs = some (v, rest)) :
    (∃ x, v = float x) ∨ ∃ n, v = int n ∧ Fits64 n := by
  obtain ⟨digits, tail, rfl, allDigits, noDigit⟩ := exists_digits cs
  have small := readDigits_le (Nat.zero_le _) 0 0 digits
  rw [readNumber_eq negative allDigits noDigit] at read
  split_ifs at read with shape stops
  · obtain ⟨w, value, same⟩ := Option.map_eq_some_iff.mp read
    cases same
    unfold integerOf at value
    split_ifs at value with positive word
    · cases value
      exact .inr ⟨_, rfl, by unfold Fits64; unfold Numeral.maxWord64 at small; omega⟩
    · cases value
      exact .inr ⟨_, rfl, by unfold Fits64; omega⟩
    · obtain ⟨x, -, same⟩ := Option.map_eq_some_iff.mp value
      exact .inl ⟨x, same.symm⟩
  · exact .inl (float_of_readFraction read)

/-! ## The texts of numbers -/

/-- The reader takes a text as a number, in front of whatever does not go on it. -/
inductive NumberText : List Char → Json → Prop
  | negative {cs : List Char} {v : Json} (takes : Takes (readNumber true) cs v) :
    NumberText ('-' :: cs) v
  | positive {c : Char} {cs : List Char} {v : Json} (digit : c.isDigit = true)
    (takes : Takes (readNumber false) (c :: cs) v) : NumberText (c :: cs) v

theorem isDigit_of_char {c : Char} (digit : c.isDigit = true) : isDigit c = true := by
  rw [isDigit, Numeral.digit?_of_isDigit digit]
  rfl

theorem head?_toDigits_ne_zero {n : Nat} (pos : 0 < n) : (Nat.toDigits 10 n).head? ≠ some '0' := by
  induction n using Nat.strongRecOn with
  | ind n ih =>
    by_cases small : n < 10
    · rw [Nat.toDigits_of_lt_base small]
      simp only [List.head?_cons, ne_eq, Option.some.injEq, Nat.digitChar_eq_zero]
      omega
    · rw [Nat.toDigits_of_base_le (by decide) (Nat.not_lt.mp small),
        List.head?_append_of_ne_nil _ Nat.toDigits_ne_nil]
      exact ih (n / 10) (by omega) (by omega)

/-- The digits of a number of 64 bits are read as it. -/
theorem readNumber_toDigits {n : Nat} (fits : n ≤ Numeral.maxWord64) (negative : Bool) :
    readNumber negative (Nat.toDigits 10 n) = (integerOf negative n).map fun v => (v, []) := by
  have digits : ∀ c ∈ Nat.toDigits 10 n, c.isDigit = true := fun c mem =>
    Nat.isDigit_of_mem_toDigits (by decide) (by decide) mem
  have value := Nat.ofDigitChars_ten_toDigits (n := n)
  have shape : ¬(Nat.toDigits 10 n = []
      ∨ (Nat.toDigits 10 n).head? = some '0' ∧ 1 < (Nat.toDigits 10 n).length) := by
    rintro (empty | ⟨zero, long⟩)
    · exact Nat.toDigits_ne_nil empty
    · rcases Nat.eq_zero_or_pos n with rfl | pos
      · exact absurd long (by decide)
      · exact head?_toDigits_ne_zero pos zero
  have taken := readDigits_fitting digits (by rw [value]; exact fits) 0
  have whole := readNumber_eq negative (fun c mem => isDigit_of_char (digits c mem))
    breaks_nil.noDigit
  rw [List.append_nil, if_neg shape, taken, value] at whole
  exact whole

/-- An integer of 64 bits is read back from its text. -/
theorem numberText_int {n : Int} (fits : Fits64 n) : NumberText (integerText n) (int n) := by
  obtain ⟨low, high⟩ := fits
  cases n with
  | ofNat n =>
    have read := readNumber_toDigits (n := n) (Int.ofNat_le.mp high) false
    cases digits : Nat.toDigits 10 n with
    | nil => exact absurd digits Nat.toDigits_ne_nil
    | cons c cs =>
      rw [digits] at read
      rw [integerText, digits]
      refine .positive ?_ (takes_of_readNumber_nil read)
      exact Nat.isDigit_of_mem_toDigits (n := n) (by decide) (by decide)
        (digits ▸ List.mem_cons_self)
  | negSucc n =>
    have read := readNumber_toDigits (n := n + 1) (by unfold Numeral.maxWord64; omega) true
    rw [integerOf, if_neg (by decide), if_pos (by omega)] at read
    exact .negative (takes_of_readNumber_nil read)

/-- The characters that the text of a number consists of. -/
def InNumber (c : Char) : Prop :=
  c.isDigit = true ∨ c = '-' ∨ c = '.' ∨ c = 'e'

theorem InNumber.isSpace {c : Char} (inNumber : InNumber c) : isSpace c = false := by
  rcases inNumber with digit | rfl | rfl | rfl
  · have notBlank : ∀ b : Char, b.isDigit = false → c ≠ b := fun b noDigit same => by
      rw [same, noDigit] at digit
      cases digit
    simp [Json.isSpace, notBlank ' ' (by decide), notBlank '\t' (by decide),
      notBlank '\n' (by decide), notBlank '\r' (by decide)]
  · rfl
  · rfl
  · rfl

theorem inNumber_of_mem_toDigits {n : Nat} {c : Char} (mem : c ∈ Nat.toDigits 10 n) : InNumber c :=
  .inl (Nat.isDigit_of_mem_toDigits (by decide) (by decide) mem)

theorem inNumber_of_mem_toString {n : Int} {c : Char} (mem : c ∈ (toString n).toList) :
    InNumber c := by
  cases n with
  | ofNat n => exact .inl (Numeral.isDigit_of_mem_toString mem)
  | negSucc n =>
    have signed : toString (Int.negSucc n) = "-" ++ toString (n + 1) := rfl
    rw [signed, String.toList_append] at mem
    rcases List.mem_append.mp mem with sign | digit
    · rw [List.mem_singleton.mp sign]
      exact .inr (.inl rfl)
    · exact .inl (Numeral.isDigit_of_mem_toString digit)

theorem inNumber_layout (d : Binary64.Decimal) : ∀ c ∈ (Binary64.layout d).toList, InNumber c := by
  -- all that a layout can have: digits, a point and an exponent
  have zero : InNumber '0' := .inl (by decide)
  have point : InNumber '.' := .inr (.inr (.inl rfl))
  have exponent : InNumber 'e' := .inr (.inr (.inr rfl))
  have digits : ∀ c ∈ Nat.toDigits 10 d.digits, InNumber c := fun _ => inNumber_of_mem_toDigits
  have zeros : ∀ n, ∀ c ∈ List.replicate n '0', InNumber c := fun n c mem =>
    List.eq_of_mem_replicate mem ▸ zero
  have none : ∀ c ∈ ([] : List Char), InNumber c := fun c mem => by cases mem
  unfold Binary64.layout
  simp only
  split_ifs with whole inside small
  · simp only [String.toList_ofList, List.forall_mem_append, List.forall_mem_cons]
    exact ⟨⟨digits, zeros _⟩, point, zero, none⟩
  · simp only [String.toList_ofList, List.forall_mem_append, List.forall_mem_cons]
    exact ⟨fun c mem => digits c (List.mem_of_mem_take mem), point,
      fun c mem => digits c (List.mem_of_mem_drop mem)⟩
  · simp only [String.toList_ofList, List.cons_append, List.forall_mem_append,
      List.forall_mem_cons]
    exact ⟨zero, point, zeros _, digits⟩
  · simp only [String.toList_append, String.toList_ofList, List.forall_mem_append]
    refine ⟨⟨?_, fun c mem => ?_⟩, fun c => inNumber_of_mem_toString⟩
    · split
      case h_1 => exact none
      case h_2 c one => exact one ▸ digits
      case h_3 c rest more =>
        rw [more, List.forall_mem_cons] at digits
        exact List.forall_mem_cons.mpr ⟨digits.1, List.forall_mem_cons.mpr ⟨point, digits.2⟩⟩
    · rw [List.mem_singleton.mp mem]
      exact exponent

theorem inNumber_text (x : Binary64) : ∀ c ∈ x.text.toList, InNumber c := by
  have body : ∀ c ∈ (if x.significand = 0 then "0.0" else Binary64.layout x.shortest).toList,
      InNumber c := by
    split_ifs
    · intro c mem
      rcases List.mem_cons.mp mem with rfl | mem
      · exact .inl (by decide)
      · rcases List.mem_cons.mp mem with rfl | mem
        · exact .inr (.inr (.inl rfl))
        · rw [List.mem_singleton.mp mem]
          exact .inl (by decide)
    · exact inNumber_layout x.shortest
  unfold Binary64.text
  by_cases sign : x.isNegative = true
  · simp only [if_pos sign]
    rw [String.toList_append, List.forall_mem_append]
    exact ⟨fun c mem => .inr (.inl (List.mem_singleton.mp mem)), body⟩
  · simp only [if_neg sign]
    exact body

end LanguageClient.Json
