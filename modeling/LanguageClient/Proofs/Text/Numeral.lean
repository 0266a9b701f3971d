import LanguageClient.Text.Numeral
import LanguageClient.Proofs.Text.Blank
/-!
# Numerals that are written

The numeral of a number is read as it, and holds neither blanks nor anything else that is no digit.
-/

namespace LanguageClient.Numeral

theorem digit?_of_isDigit {c : Char} (h : c.isDigit = true) : digit? c = some (c.toNat - 48) := by
  rw [digit?, if_pos]
  simpa [Char.isDigit, Char.le_def] using h

/-- Digits are read from the left, each giving the next place. -/
theorem valueFrom_eq {cs : List Char} (acc : Nat) (digits : ∀ c ∈ cs, c.isDigit = true) :
    valueFrom acc cs = some (Nat.ofDigitChars 10 cs acc) := by
  induction cs generalizing acc with
  | nil => simp [valueFrom]
  | cons c cs ih =>
    rw [List.forall_mem_cons] at digits
    rw [valueFrom, digit?_of_isDigit digits.1, Option.bind_some, ih _ digits.2,
      Nat.ofDigitChars_cons, Nat.mul_comm acc 10]
    rfl

theorem isDigit_of_mem_toString {n : Nat} {c : Char} (mem : c ∈ (toString n).toList) :
    c.isDigit = true := by
  rw [Nat.toString_eq_ofList_toDigits, String.toList_ofList] at mem
  exact Nat.isDigit_of_mem_toDigits (by decide) (by decide) mem

/-- A number that is written is read back if it is within the bound, and refused if it is not. -/
theorem natural?_toString (bound n : Nat) :
    natural? bound (toString n) = if n ≤ bound then some n else none := by
  have value : digits? (toString n).toList = some n := by
    cases digits : (toString n).toList with
    | nil =>
      rw [Nat.toString_eq_ofList_toDigits, String.toList_ofList] at digits
      exact absurd digits Nat.toDigits_ne_nil
    | cons c cs =>
      rw [digits?, ← digits, valueFrom_eq 0 (fun _ => isDigit_of_mem_toString),
        Nat.toString_eq_ofList_toDigits, String.toList_ofList, Nat.ofDigitChars_ten_toDigits]
      exact List.cons_ne_nil c cs
  have unsigned : ∀ rest, (toString n).toList ≠ '+' :: rest := by
    intro rest signed
    have : Char.isDigit '+' = true :=
      isDigit_of_mem_toString (n := n) (signed ▸ List.mem_cons_self)
    exact absurd this (by decide)
  rw [natural?]
  split
  case h_1 rest signed => exact absurd signed (unsigned rest)
  case h_2 =>
    rw [value, Option.filter_some]
    simp

theorem isBlank_of_isDigit {c : Char} (h : c.isDigit = true) : Text.isBlank c = false := by
  simp only [Char.isDigit, Bool.and_eq_true, decide_eq_true_eq, UInt32.le_iff_toNat_le] at h
  have low : 48 ≤ c.toNat := h.1
  have high : c.toNat ≤ 57 := h.2
  simp only [Text.isBlank, Bool.or_eq_false_iff, Bool.and_eq_false_iff, decide_eq_false_iff_not,
    beq_eq_false_iff_ne]
  omega

end LanguageClient.Numeral
